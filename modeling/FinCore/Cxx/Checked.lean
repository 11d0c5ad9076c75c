/-
  FinCore.Cxx.Checked
  ───────────────────
  Computations over 64-bit machine words that remember whether any operation
  left the range of its type.

  The words are Lean's `UInt64` and `Int64`, so an operation computes what the
  machine computes, wrapped or not; beside the result, a `Checked` computation
  carries the flag `wrapped`, raised by any operation whose mathematical result
  its type cannot hold.  A computation that equals `pure a` or `throw e` has
  raised no flag, so "this function is `pure …`" states its result and the
  absence of overflow at once.
-/
import Mathlib

namespace FinCore.Cxx

/-- The outcome of a computation: its value or exception, and whether some
operation on the way wrapped. -/
@[ext] structure Checked (ε α : Type) where
  result : Except ε α
  wrapped : Bool

namespace Checked

variable {ε α β : Type}

/-- Sequencing.  Irreducible, as are the operations of §1: proofs go through the
lemmas below, and no unifier evaluates a range test on a word it does not
know. -/
@[irreducible] def seq (x : Checked ε α) (f : α → Checked ε β) : Checked ε β :=
  match x.result with
  | .ok a => ⟨(f a).result, x.wrapped || (f a).wrapped⟩
  | .error e => ⟨.error e, x.wrapped⟩

instance : Monad (Checked ε) where
  pure a := ⟨.ok a, false⟩
  bind := seq

instance : MonadExcept ε (Checked ε) where
  throw e := ⟨.error e, false⟩
  tryCatch x h :=
    match x.result with
    | .ok _ => x
    | .error e => ⟨(h e).result, x.wrapped || (h e).wrapped⟩

instance : LawfulMonad (Checked ε) := LawfulMonad.mk' (Checked ε)
  (fun x => by
    obtain ⟨r, w⟩ := x
    cases r <;> simp [Functor.map, seq])
  (fun a f => by
    ext <;> simp [bind, pure, seq])
  (fun x f g => by
    obtain ⟨r, w⟩ := x
    cases r with
    | error e => simp [bind, seq]
    | ok a =>
        simp only [bind, seq]
        cases (f a).result <;> simp [Bool.or_assoc])

@[simp] theorem throw_bind (e : ε) (f : α → Checked ε β) :
    ((throw e : Checked ε α) >>= f) = throw e := by
  simp [bind, seq, throw]

@[simp] theorem pure_result (a : α) : (pure a : Checked ε α).result = .ok a := rfl

@[simp] theorem pure_wrapped (a : α) : (pure a : Checked ε α).wrapped = false := rfl

@[simp] theorem throw_result (e : ε) : (throw e : Checked ε α).result = .error e := rfl

@[simp] theorem throw_wrapped (e : ε) : (throw e : Checked ε α).wrapped = false := rfl

/-! ## §1. Operations on words. -/

@[irreducible] def addU64 (a b : UInt64) : Checked ε UInt64 :=
  ⟨.ok (a + b), decide (2 ^ 64 ≤ a.toNat + b.toNat)⟩

@[irreducible] def subU64 (a b : UInt64) : Checked ε UInt64 :=
  ⟨.ok (a - b), decide (a.toNat < b.toNat)⟩

@[irreducible] def mulU64 (a b : UInt64) : Checked ε UInt64 :=
  ⟨.ok (a * b), decide (2 ^ 64 ≤ a.toNat * b.toNat)⟩

/-- `static_cast<std::int64_t>` of an unsigned word. -/
@[irreducible] def toI64 (a : UInt64) : Checked ε Int64 :=
  ⟨.ok a.toInt64, decide (2 ^ 63 ≤ a.toNat)⟩

/-- Unary minus on a signed word. -/
@[irreducible] def negI64 (a : Int64) : Checked ε Int64 :=
  ⟨.ok (-a), decide (a = Int64.minValue)⟩

/-! ## §2. Operations that stay in range, on the numbers the words stand for. -/

theorem toNat_ofNat_of_lt {n : ℕ} (h : n < 2 ^ 64) : (UInt64.ofNat n).toNat = n := by
  rw [UInt64.toNat_ofNat']
  exact Nat.mod_eq_of_lt h

theorem addU64_ofNat {a b : ℕ} (h : a + b < 2 ^ 64) :
    addU64 (ε := ε) (UInt64.ofNat a) (UInt64.ofNat b) = pure (UInt64.ofNat (a + b)) := by
  have ha := toNat_ofNat_of_lt (n := a) (by omega)
  have hb := toNat_ofNat_of_lt (n := b) (by omega)
  ext
  · simp [addU64]
  · simp only [addU64, ha, hb, pure_wrapped, decide_eq_false_iff_not]
    omega

theorem subU64_ofNat {a b : ℕ} (ha : a < 2 ^ 64) (h : b ≤ a) :
    subU64 (ε := ε) (UInt64.ofNat a) (UInt64.ofNat b) = pure (UInt64.ofNat (a - b)) := by
  have ha' := toNat_ofNat_of_lt ha
  have hb' := toNat_ofNat_of_lt (n := b) (by omega)
  ext
  · simp only [subU64, pure_result]
    rw [UInt64.ofNat_sub h]
  · simp only [subU64, ha', hb', pure_wrapped, decide_eq_false_iff_not]
    omega

theorem mulU64_ofNat {a b : ℕ} (ha : a < 2 ^ 64) (hb : b < 2 ^ 64) (h : a * b < 2 ^ 64) :
    mulU64 (ε := ε) (UInt64.ofNat a) (UInt64.ofNat b) = pure (UInt64.ofNat (a * b)) := by
  ext
  · simp [mulU64]
  · simp only [mulU64, toNat_ofNat_of_lt ha, toNat_ofNat_of_lt hb, pure_wrapped,
      decide_eq_false_iff_not]
    omega

theorem toI64_ofNat {a : ℕ} (h : a < 2 ^ 63) :
    toI64 (ε := ε) (UInt64.ofNat a) = pure (Int64.ofInt a) := by
  have ha := toNat_ofNat_of_lt (n := a) (by omega)
  ext
  · simp [toI64, Int64.ofInt_eq_ofNat]
  · simp only [toI64, ha, pure_wrapped, decide_eq_false_iff_not]
    omega

theorem negI64_ofInt {a : ℤ} (hlo : -2 ^ 63 < a) (hhi : a < 2 ^ 63) :
    negI64 (ε := ε) (Int64.ofInt a) = pure (Int64.ofInt (-a)) := by
  ext
  · simp [negI64]
  · simp only [negI64, pure_wrapped, decide_eq_false_iff_not]
    intro h
    have hi := congrArg Int64.toInt h
    rw [Int64.toInt_ofInt_of_le (by omega) hhi, Int64.toInt_minValue] at hi
    omega

theorem ofNat_div {a b : ℕ} (ha : a < 2 ^ 64) (hb : b < 2 ^ 64) :
    UInt64.ofNat a / UInt64.ofNat b = UInt64.ofNat (a / b) := by
  apply UInt64.toNat.inj
  rw [UInt64.toNat_div, toNat_ofNat_of_lt ha, toNat_ofNat_of_lt hb,
    toNat_ofNat_of_lt (lt_of_le_of_lt (Nat.div_le_self a b) ha)]

theorem ofNat_lt_iff {a b : ℕ} (ha : a < 2 ^ 64) (hb : b < 2 ^ 64) :
    UInt64.ofNat a < UInt64.ofNat b ↔ a < b := by
  rw [UInt64.lt_iff_toNat_lt, toNat_ofNat_of_lt ha, toNat_ofNat_of_lt hb]

theorem ofNat_inj {a b : ℕ} (ha : a < 2 ^ 64) (hb : b < 2 ^ 64) :
    UInt64.ofNat a = UInt64.ofNat b ↔ a = b := by
  rw [← UInt64.toNat_inj, toNat_ofNat_of_lt ha, toNat_ofNat_of_lt hb]

/-! ## §3. What a computation may throw. -/

/-- Every exception satisfies `P`. -/
def ThrowsOnly (P : ε → Prop) (x : Checked ε α) : Prop := ∀ e, x.result = .error e → P e

section ThrowsOnly

variable {P : ε → Prop}

theorem ThrowsOnly.pure (a : α) : ThrowsOnly P (Pure.pure a : Checked ε α) := by
  intro e h
  cases h

theorem ThrowsOnly.throw {e : ε} (h : P e) : ThrowsOnly P (MonadExcept.throw e : Checked ε α) := by
  intro e' he
  cases he
  exact h

theorem ThrowsOnly.bind {x : Checked ε α} {f : α → Checked ε β} (hx : ThrowsOnly P x)
    (hf : ∀ a, ThrowsOnly P (f a)) : ThrowsOnly P (x >>= f) := by
  obtain ⟨r, w⟩ := x
  cases r with
  | ok a =>
      intro e he
      exact hf a e (by simpa [Bind.bind, seq] using he)
  | error e =>
      intro e' he
      exact hx e' (by simpa [Bind.bind, seq] using he)

theorem ThrowsOnly.map {x : Checked ε α} (f : α → β) (hx : ThrowsOnly P x) :
    ThrowsOnly P (f <$> x) := by
  rw [map_eq_pure_bind]
  exact hx.bind fun a => ThrowsOnly.pure (f a)

theorem ThrowsOnly.ite {p : Prop} [Decidable p] {x y : Checked ε α} (hx : ThrowsOnly P x)
    (hy : ThrowsOnly P y) : ThrowsOnly P (if p then x else y) := by
  split
  · exact hx
  · exact hy

theorem addU64_throwsOnly (a b : UInt64) : ThrowsOnly P (addU64 a b) := by
  intro e h
  simp [addU64] at h

theorem subU64_throwsOnly (a b : UInt64) : ThrowsOnly P (subU64 a b) := by
  intro e h
  simp [subU64] at h

theorem mulU64_throwsOnly (a b : UInt64) : ThrowsOnly P (mulU64 a b) := by
  intro e h
  simp [mulU64] at h

theorem toI64_throwsOnly (a : UInt64) : ThrowsOnly P (toI64 a) := by
  intro e h
  simp [toI64] at h

theorem negI64_throwsOnly (a : Int64) : ThrowsOnly P (negI64 a) := by
  intro e h
  simp [negI64] at h

end ThrowsOnly

end Checked

end FinCore.Cxx

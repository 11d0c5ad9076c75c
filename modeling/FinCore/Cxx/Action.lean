/-
  FinCore.Cxx.Action
  ──────────────────
  Stateful computations that may throw.

  An exception does not undo what was done before it: an action returns its
  state beside the value or the exception.  The rules below evaluate an action
  step by step once the outcome of each part is known, and say how a relation
  between the state before and after is carried through the combinators.
-/
import Mathlib

namespace FinCore.Cxx

/-- A computation over the state `σ` that returns an `α` or throws an `ε`. -/
def Action (σ ε α : Type) : Type := σ → Except ε α × σ

namespace Action

variable {σ τ ε α β : Type}

/-! ## §1. Combinators. -/

instance : Monad (Action σ ε) where
  pure a := fun s => (.ok a, s)
  bind x f := fun s =>
    match x s with
    | (.ok a, s') => f a s'
    | (.error e, s') => (.error e, s')

instance : MonadExcept ε (Action σ ε) where
  throw e := fun s => (.error e, s)
  tryCatch x h := fun s =>
    match x s with
    | (.ok a, s') => (.ok a, s')
    | (.error e, s') => h e s'

def get : Action σ ε σ := fun s => (.ok s, s)

def modify (f : σ → σ) : Action σ ε Unit := fun s => (.ok (), f s)

/-- A computation that reads and changes the state but cannot throw. -/
def ofState (f : σ → α × σ) : Action σ ε α := fun s => (.ok (f s).1, (f s).2)

/-- A pure computation that may throw. -/
def ofExcept (r : Except ε α) : Action σ ε α := fun s => (r, s)

/-- Run an action on a part of the state. -/
def zoom (view : σ → τ) (update : τ → σ → σ) (x : Action τ ε α) : Action σ ε α := fun s =>
  ((x (view s)).1, update (x (view s)).2 s)

/-- Run `cleanup` when `x` throws, and let the exception of `x` win: what a
destructor that swallows exceptions does during unwinding. -/
def onThrow (x : Action σ ε α) (cleanup : Action σ ε Unit) : Action σ ε α := fun s =>
  match x s with
  | (.ok a, s') => (.ok a, s')
  | (.error e, s') => (.error e, (cleanup s').2)

/-! ## §2. Evaluation. -/

@[simp] theorem pure_run (a : α) (s : σ) : (pure a : Action σ ε α) s = (.ok a, s) := rfl

@[simp] theorem throw_run (e : ε) (s : σ) : (throw e : Action σ ε α) s = (.error e, s) := rfl

@[simp] theorem get_run (s : σ) : (get : Action σ ε σ) s = (.ok s, s) := rfl

@[simp] theorem modify_run (f : σ → σ) (s : σ) :
    (modify f : Action σ ε Unit) s = (.ok (), f s) := rfl

@[simp] theorem ofState_run (f : σ → α × σ) (s : σ) :
    (ofState f : Action σ ε α) s = (.ok (f s).1, (f s).2) := rfl

@[simp] theorem ofExcept_run (r : Except ε α) (s : σ) :
    (ofExcept r : Action σ ε α) s = (r, s) := rfl

theorem bind_run (x : Action σ ε α) (f : α → Action σ ε β) (s : σ) :
    (x >>= f) s =
      match x s with
      | (.ok a, s') => f a s'
      | (.error e, s') => (.error e, s') := rfl

theorem bind_ok {x : Action σ ε α} {f : α → Action σ ε β} {s s' : σ} {a : α}
    (h : x s = (.ok a, s')) : (x >>= f) s = f a s' := by
  rw [bind_run, h]

theorem bind_error {x : Action σ ε α} {f : α → Action σ ε β} {s s' : σ} {e : ε}
    (h : x s = (.error e, s')) : (x >>= f) s = (.error e, s') := by
  rw [bind_run, h]

/-- A sequence returns exactly when both parts do. -/
theorem bind_eq_ok {x : Action σ ε α} {f : α → Action σ ε β} {s t : σ} {b : β}
    (h : (x >>= f) s = (.ok b, t)) : ∃ a s', x s = (.ok a, s') ∧ f a s' = (.ok b, t) := by
  rcases hx : x s with ⟨r, s'⟩
  cases r with
  | ok a => exact ⟨a, s', rfl, by rwa [bind_ok hx] at h⟩
  | error e =>
      rw [bind_error hx] at h
      cases h

theorem tryCatch_run (x : Action σ ε α) (h : ε → Action σ ε α) (s : σ) :
    (tryCatch x h) s =
      match x s with
      | (.ok a, s') => (.ok a, s')
      | (.error e, s') => h e s' := rfl

theorem tryCatch_ok {x : Action σ ε α} {h : ε → Action σ ε α} {s s' : σ} {a : α}
    (hx : x s = (.ok a, s')) : (tryCatch x h) s = (.ok a, s') := by
  rw [tryCatch_run, hx]

theorem tryCatch_error {x : Action σ ε α} {h : ε → Action σ ε α} {s s' : σ} {e : ε}
    (hx : x s = (.error e, s')) : (tryCatch x h) s = h e s' := by
  rw [tryCatch_run, hx]

theorem onThrow_ok {x : Action σ ε α} {c : Action σ ε Unit} {s s' : σ} {a : α}
    (h : x s = (.ok a, s')) : onThrow x c s = (.ok a, s') := by
  rw [onThrow, h]

theorem onThrow_error {x : Action σ ε α} {c : Action σ ε Unit} {s s' : σ} {e : ε}
    (h : x s = (.error e, s')) : onThrow x c s = (.error e, (c s').2) := by
  rw [onThrow, h]

/-- The pure case: `Except` is the action over no state. -/
theorem except_bind_eq_ok {x : Except ε α} {f : α → Except ε β} {b : β} :
    (x >>= f) = .ok b ↔ ∃ a, x = .ok a ∧ f a = .ok b := by
  cases x with
  | error e => exact ⟨nofun, fun ⟨_, h, _⟩ => nomatch h⟩
  | ok a => exact ⟨fun h => ⟨a, rfl, h⟩, fun ⟨_, ha, h⟩ => Except.ok.inj ha ▸ h⟩

/-! ## §3. Relations along an action. -/

/-- Whatever comes of `x`, it moves the state along `R`. -/
def Within (R : σ → σ → Prop) (x : Action σ ε α) : Prop := ∀ s, R s (x s).2

/-- What holds before holds after. -/
def Preserves (P : σ → Prop) (s t : σ) : Prop := P s → P t

instance (P : σ → Prop) : IsPreorder σ (Preserves P) where
  refl _ := id
  trans _ _ _ h h' := h' ∘ h

/-- What `view` shows of the state stays. -/
def Same (view : σ → τ) (s t : σ) : Prop := view t = view s

instance (view : σ → τ) : IsPreorder σ (Same view) where
  refl _ := rfl
  trans _ _ _ h h' := Eq.trans h' h

theorem Within.mono {R R' : σ → σ → Prop} {x : Action σ ε α} (h : Within R x)
    (hsub : ∀ s t, R s t → R' s t) : Within R' x :=
  fun s => hsub s _ (h s)

theorem Within.ite {R : σ → σ → Prop} {p : Prop} [Decidable p] {x y : Action σ ε α}
    (hx : p → Within R x) (hy : ¬ p → Within R y) : Within R (if p then x else y) := by
  split
  next h => exact hx h
  next h => exact hy h

section Within

variable {R : σ → σ → Prop} [IsPreorder σ R]

theorem Within.pure (a : α) : Within R (Pure.pure a : Action σ ε α) :=
  fun s => refl_of R s

theorem Within.throw (e : ε) : Within R (MonadExcept.throw e : Action σ ε α) :=
  fun s => refl_of R s

theorem Within.get : Within R (Action.get : Action σ ε σ) :=
  fun s => refl_of R s

theorem Within.ofExcept (r : Except ε α) : Within R (Action.ofExcept r : Action σ ε α) :=
  fun s => refl_of R s

theorem Within.bind {x : Action σ ε α} {f : α → Action σ ε β} (hx : Within R x)
    (hf : ∀ a, Within R (f a)) : Within R (x >>= f) := by
  intro s
  have hfirst := hx s
  rw [bind_run]
  rcases hrun : x s with ⟨r, s'⟩
  rw [hrun] at hfirst
  cases r with
  | error e => exact hfirst
  | ok a => exact trans_of R hfirst (hf a s')

theorem Within.tryCatch {x : Action σ ε α} {h : ε → Action σ ε α} (hx : Within R x)
    (hh : ∀ e, Within R (h e)) : Within R (MonadExcept.tryCatch x h) := by
  intro s
  have hfirst := hx s
  rw [tryCatch_run]
  rcases hrun : x s with ⟨r, s'⟩
  rw [hrun] at hfirst
  cases r with
  | ok a => exact hfirst
  | error e => exact trans_of R hfirst (hh e s')

theorem Within.onThrow {x : Action σ ε α} {cleanup : Action σ ε Unit} (hx : Within R x)
    (hcleanup : Within R cleanup) : Within R (Action.onThrow x cleanup) := by
  intro s
  have hfirst := hx s
  rcases hrun : x s with ⟨r, s'⟩
  rw [hrun] at hfirst
  cases r with
  | ok a =>
      rw [onThrow_ok hrun]
      exact hfirst
  | error e =>
      rw [onThrow_error hrun]
      exact trans_of R hfirst (hcleanup s')

end Within

/-! ## §4. Triples. -/

/-- From a state in `P` the action returns in `Q` or throws in `E`. -/
def Meets (P : σ → Prop) (x : Action σ ε α) (Q : α → σ → Prop) (E : σ → Prop) : Prop :=
  ∀ s, P s →
    match x s with
    | (.ok a, s') => Q a s'
    | (.error _, s') => E s'

section Meets

variable {P P' E E' : σ → Prop} {Q Q' : α → σ → Prop}

/-- Strengthen what is assumed and weaken what is concluded. -/
theorem Meets.mono {x : Action σ ε α} (h : Meets P x Q E) (hP : ∀ s, P' s → P s)
    (hQ : ∀ a s, Q a s → Q' a s) (hE : ∀ s, E s → E' s) : Meets P' x Q' E' := by
  intro s hs
  have hx := h s (hP s hs)
  rcases hrun : x s with ⟨r, s'⟩
  rw [hrun] at hx
  cases r with
  | ok a => exact hQ a s' hx
  | error e => exact hE s' hx

theorem Meets.pure (a : α) (h : ∀ s, P s → Q a s) : Meets P (Pure.pure a : Action σ ε α) Q E :=
  h

theorem Meets.bind {x : Action σ ε α} {f : α → Action σ ε β} {R : β → σ → Prop}
    (hx : Meets P x Q E) (hf : ∀ a, Meets (Q a) (f a) R E) : Meets P (x >>= f) R E := by
  intro s hs
  have hfirst := hx s hs
  rw [bind_run]
  rcases hrun : x s with ⟨r, s'⟩
  rw [hrun] at hfirst
  cases r with
  | ok a => exact hf a s' hfirst
  | error e => exact hfirst

theorem Meets.get {f : σ → Action σ ε α} (h : ∀ s, P s → Meets (· = s) (f s) Q E) :
    Meets P (Action.get >>= f) Q E :=
  fun s hs => h s hs s rfl

theorem Meets.modify {g : σ → σ} {Q : Unit → σ → Prop} (h : ∀ s, P s → Q () (g s)) :
    Meets P (Action.modify g : Action σ ε Unit) Q E :=
  h

end Meets

/-! ## §5. Refusals. -/

/-- It throws before it has changed anything. -/
def Declines (x : Action σ ε α) (s : σ) : Prop := ∃ e, x s = (.error e, s)

theorem Declines.throw (e : ε) (s : σ) : Declines (MonadExcept.throw e : Action σ ε α) s :=
  ⟨e, rfl⟩

theorem Declines.bind {x : Action σ ε α} {s : σ} (h : Declines x s) (f : α → Action σ ε β) :
    Declines (x >>= f) s := by
  obtain ⟨e, hx⟩ := h
  exact ⟨e, bind_error hx⟩

/-- Nothing has changed when the first part returns. -/
theorem Declines.after {x : Action σ ε α} {f : α → Action σ ε β} {s : σ} {a : α}
    (hx : x s = (.ok a, s)) (hf : Declines (f a) s) : Declines (x >>= f) s := by
  obtain ⟨e, hrun⟩ := hf
  exact ⟨e, (bind_ok hx).trans hrun⟩

/-! ## §6. Runs of calls. -/

/-- A call whose exception, if it throws one, is caught and kept. -/
def attempt (x : Action σ ε α) : Action σ ε (Except ε α) := fun s => (.ok (x s).1, (x s).2)

/-- Calls one after the other, with the result of each. -/
def attemptAll : List (Action σ ε α) → Action σ ε (List (Except ε α))
  | [] => pure []
  | x :: rest => do
      let result ← attempt x
      let results ← attemptAll rest
      return result :: results

theorem attemptAll_cons (x : Action σ ε α) (rest : List (Action σ ε α)) (s : σ) :
    (attemptAll (x :: rest) s).2 = (attemptAll rest (x s).2).2 := by
  have hfirst : attempt x s = (.ok (x s).1, (x s).2) := rfl
  rw [attemptAll, bind_ok hfirst, bind_run]
  rcases attemptAll rest (x s).2 with ⟨r, t⟩
  cases r <;> rfl

/-- What every call stays within, a run of calls does. -/
theorem Within.attemptAll {R : σ → σ → Prop} [IsPreorder σ R] {calls : List (Action σ ε α)}
    (h : ∀ x ∈ calls, Within R x) : Within R (Action.attemptAll calls) := by
  induction calls with
  | nil => exact Within.pure []
  | cons x rest ih =>
      intro s
      rw [attemptAll_cons]
      exact trans_of R (h x List.mem_cons_self s)
        (ih (fun y hy => h y (List.mem_cons_of_mem _ hy)) _)

end Action

end FinCore.Cxx

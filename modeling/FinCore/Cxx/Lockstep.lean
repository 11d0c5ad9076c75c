/-
  FinCore.Cxx.Lockstep
  ────────────────────
  Two runs of a computation side by side.

  Two actions are in lockstep along a relation of states when, from related
  states, they return or throw the same and end in related states.  The rules
  below carry lockstep through the combinators.  A loop over inputs keeps it
  when one of the two runs is given further inputs that change nothing the
  relation sees (`Lockstep.inputLoop`).
-/
import FinCore.Cxx.Action

namespace FinCore.Cxx

namespace Action

variable {σ τ ε α β ι : Type}

/-! ## §1. Rules. -/

/-- From states related by `R` the outcome is the same, and the states that
result are again related. -/
def Lockstep (R : σ → σ → Prop) (x y : Action σ ε α) : Prop :=
  ∀ s t, R s t → (x s).1 = (y t).1 ∧ R (x s).2 (y t).2

/-- An action is in lockstep with itself from one and the same state. -/
theorem Lockstep.self (x : Action σ ε α) : Lockstep Eq x x := by
  rintro s t rfl
  exact ⟨rfl, rfl⟩

section Rules

variable {R : σ → σ → Prop}

theorem Lockstep.pure (a : α) : Lockstep R (Pure.pure a : Action σ ε α) (Pure.pure a) :=
  fun _ _ h => ⟨rfl, h⟩

theorem Lockstep.throw (e : ε) :
    Lockstep R (MonadExcept.throw e : Action σ ε α) (MonadExcept.throw e) :=
  fun _ _ h => ⟨rfl, h⟩

theorem Lockstep.ofExcept (r : Except ε α) :
    Lockstep R (Action.ofExcept r : Action σ ε α) (Action.ofExcept r) :=
  fun _ _ h => ⟨rfl, h⟩

theorem Lockstep.modify {f g : σ → σ} (h : ∀ s t, R s t → R (f s) (g t)) :
    Lockstep R (Action.modify f : Action σ ε Unit) (Action.modify g) :=
  fun s t hst => ⟨rfl, h s t hst⟩

theorem Lockstep.ofState {f g : σ → α × σ} (h : ∀ s t, R s t → (f s).1 = (g t).1)
    (h' : ∀ s t, R s t → R (f s).2 (g t).2) :
    Lockstep R (Action.ofState f : Action σ ε α) (Action.ofState g) :=
  fun s t hst => ⟨congrArg Except.ok (h s t hst), h' s t hst⟩

/-- What reads the state goes on in lockstep when it does so from any two
related states that it may have read. -/
theorem Lockstep.get {f g : σ → Action σ ε α} (h : ∀ s t, R s t → Lockstep R (f s) (g t)) :
    Lockstep R (Action.get >>= f) (Action.get >>= g) :=
  fun s t hst => h s t hst s t hst

theorem Lockstep.bind {x y : Action σ ε α} {f g : α → Action σ ε β} (hx : Lockstep R x y)
    (hf : ∀ a, Lockstep R (f a) (g a)) : Lockstep R (x >>= f) (y >>= g) := by
  intro s t hst
  obtain ⟨hout, hnext⟩ := hx s t hst
  rcases hrun : x s with ⟨r, s'⟩
  rcases hrun' : y t with ⟨r', t'⟩
  rw [hrun, hrun'] at hout hnext
  obtain rfl : r = r' := hout
  cases r with
  | ok a =>
      rw [bind_ok hrun, bind_ok hrun']
      exact hf a s' t' hnext
  | error e =>
      rw [bind_error hrun, bind_error hrun']
      exact ⟨rfl, hnext⟩

theorem Lockstep.tryCatch {x y : Action σ ε α} {f g : ε → Action σ ε α} (hx : Lockstep R x y)
    (hf : ∀ e, Lockstep R (f e) (g e)) :
    Lockstep R (MonadExcept.tryCatch x f) (MonadExcept.tryCatch y g) := by
  intro s t hst
  obtain ⟨hout, hnext⟩ := hx s t hst
  rcases hrun : x s with ⟨r, s'⟩
  rcases hrun' : y t with ⟨r', t'⟩
  rw [hrun, hrun'] at hout hnext
  obtain rfl : r = r' := hout
  cases r with
  | ok a =>
      rw [tryCatch_ok hrun, tryCatch_ok hrun']
      exact ⟨rfl, hnext⟩
  | error e =>
      rw [tryCatch_error hrun, tryCatch_error hrun']
      exact hf e s' t' hnext

theorem Lockstep.ite {p : Prop} [Decidable p] {x x' y y' : Action σ ε α} (hx : p → Lockstep R x y)
    (hx' : ¬ p → Lockstep R x' y') : Lockstep R (if p then x else x') (if p then y else y') := by
  split
  next h => exact hx h
  next h => exact hx' h

/-- A part of the state on which two actions are in lockstep. -/
theorem Lockstep.zoom {Q : τ → τ → Prop} {view : σ → τ} {update : τ → σ → σ}
    {x y : Action τ ε α} (hxy : Lockstep Q x y) (hview : ∀ s t, R s t → Q (view s) (view t))
    (hupdate : ∀ s t a b, R s t → Q a b → R (update a s) (update b t)) :
    Lockstep R (Action.zoom view update x) (Action.zoom view update y) := by
  intro s t hst
  obtain ⟨hout, hnext⟩ := hxy _ _ (hview s t hst)
  exact ⟨hout, hupdate s t _ _ hst hnext⟩

/-- An invariant of the second run may be assumed along it. -/
theorem Lockstep.and_preserves {x y : Action σ ε α} {P : σ → Prop} (hxy : Lockstep R x y)
    (hP : Within (Preserves P) y) : Lockstep (fun s t => R s t ∧ P t) x y := by
  rintro s t ⟨hst, ht⟩
  obtain ⟨hout, hnext⟩ := hxy s t hst
  exact ⟨hout, hnext, hP t ht⟩

end Rules

/-! ## §2. Loops over inputs. -/

/-- Handle one input after the other until one of them says to stop. -/
def inputLoop (step : ι → Action σ ε Bool) : List ι → Action σ ε Unit
  | [] => Pure.pure ()
  | input :: rest => do
      let running ← step input
      if running then inputLoop step rest else Pure.pure ()

/-- The second list is the first with inputs of the kind `idle` put in, any
number of them at any places. -/
inductive Interspersed (idle : ι → Prop) : List ι → List ι → Prop where
  | nil : Interspersed idle [] []
  | keep (input : ι) {rest rest' : List ι} :
      Interspersed idle rest rest' → Interspersed idle (input :: rest) (input :: rest')
  | insert (input : ι) {rest rest' : List ι} :
      idle input → Interspersed idle rest rest' → Interspersed idle rest (input :: rest')

variable {R : σ → σ → Prop} {step : ι → Action σ ε Bool}

/-- **Inputs that keep the relation and let the loop go on may be put in
anywhere.** -/
theorem Lockstep.inputLoop {idle : ι → Prop} (hstep : ∀ input, Lockstep R (step input) (step input))
    (hidle : ∀ input, idle input → ∀ s t, R s t →
      (step input t).1 = .ok true ∧ R s (step input t).2)
    {inputs inputs' : List ι} (h : Interspersed idle inputs inputs') :
    Lockstep R (Action.inputLoop step inputs) (Action.inputLoop step inputs') := by
  induction h with
  | nil => exact Lockstep.pure ()
  | keep input _ ih =>
      refine (hstep input).bind (fun running => ?_)
      exact Lockstep.ite (fun _ => ih) (fun _ => Lockstep.pure ())
  | @insert input rest rest' hinput _ ih =>
      intro s t hst
      obtain ⟨hout, hkept⟩ := hidle input hinput s t hst
      have hrun : step input t = (.ok true, (step input t).2) := Prod.ext hout rfl
      -- the second run makes one more step before the loops go on together
      have hnext : Action.inputLoop step (input :: rest') t
          = Action.inputLoop step rest' (step input t).2 := bind_ok hrun
      rw [hnext]
      exact ih s _ hkept

end Action

end FinCore.Cxx

/-
  FinCore.Concurrent.Program
  ──────────────────────────
  Programs of commands.

  A program issues one command at a time to a server and goes on with the reply
  or the error.  Performed alone it is an action on the server (`perform`); as a
  tree it can also be stopped between two commands, where other clients get in.
-/
import FinCore.Cxx.Action

namespace FinCore.Concurrent

open FinCore.Cxx

/-- What a client has still to do: `C` are the commands, `R` the replies and `T`
the readings of the clock. -/
inductive Program (C R T ε α : Type) where
  | done (result : Except ε α)
  | issue (command : C) (next : Except ε R → Program C R T ε α)
  /-- Read the clock. -/
  | clock (next : T → Program C R T ε α)

namespace Program

variable {C R T ε α β σ : Type}

/-! ## §1. Combinators. -/

/-- Go on with the result or the exception. -/
def andThen : Program C R T ε α → (Except ε α → Program C R T ε β) → Program C R T ε β
  | done result, rest => rest result
  | issue command next, rest => issue command (fun reply => (next reply).andThen rest)
  | clock next, rest => clock (fun t => (next t).andThen rest)

instance : Monad (Program C R T ε) where
  pure a := done (.ok a)
  bind x f := x.andThen fun
    | .ok a => f a
    | .error e => done (.error e)

instance : MonadExcept ε (Program C R T ε) where
  throw e := done (.error e)
  tryCatch x h := x.andThen fun
    | .ok a => done (.ok a)
    | .error e => h e

/-- One command. -/
def command (c : C) : Program C R T ε R := issue c done

def readClock : Program C R T ε T := clock (fun t => done (.ok t))

/-! ## §2. Programs performed alone. -/

section Perform

variable (serve : C → Action σ ε R) (now : σ → T)

/-- Perform a program with nobody else about. -/
def perform : Program C R T ε α → Action σ ε α
  | done result => Action.ofExcept result
  | issue c next => fun s => (next (serve c s).1).perform (serve c s).2
  | clock next => fun s => (next (now s)).perform s

variable {serve now}

theorem perform_andThen (x : Program C R T ε α) (rest : Except ε α → Program C R T ε β) :
    ∀ s : σ, (x.andThen rest).perform serve now s
      = (rest (x.perform serve now s).1).perform serve now (x.perform serve now s).2 := by
  induction x with
  | done result => exact fun _ => rfl
  | issue c next ih => exact fun s => ih _ _
  | clock next ih => exact fun s => ih _ s

theorem perform_pure (a : α) :
    (pure a : Program C R T ε α).perform serve now = (pure a : Action σ ε α) := rfl

theorem perform_bind (x : Program C R T ε α) (f : α → Program C R T ε β) :
    (x >>= f).perform serve now
      = (x.perform serve now >>= fun a => (f a).perform serve now : Action σ ε β) := by
  funext s
  refine (perform_andThen x _ s).trans ?_
  rw [Action.bind_run]
  rcases x.perform serve now s with ⟨r, s'⟩
  cases r <;> rfl

theorem perform_tryCatch (x : Program C R T ε α) (h : ε → Program C R T ε α) :
    (tryCatch x h).perform serve now
      = (tryCatch (x.perform serve now) fun e => (h e).perform serve now : Action σ ε α) := by
  funext s
  refine (perform_andThen x _ s).trans ?_
  rw [Action.tryCatch_run]
  rcases x.perform serve now s with ⟨r, s'⟩
  cases r <;> rfl

theorem perform_command (c : C) :
    (command c : Program C R T ε R).perform serve now = serve c := rfl

theorem perform_readClock :
    (readClock : Program C R T ε T).perform serve now
      = (Action.ofState fun s => (now s, s) : Action σ ε T) := rfl

end Perform

/-! ## §3. The commands of a program. -/

/-- Every command that the program may issue satisfies `P`. -/
def Issues (P : C → Prop) : Program C R T ε α → Prop
  | done _ => True
  | issue c next => P c ∧ ∀ reply, (next reply).Issues P
  | clock next => ∀ t, (next t).Issues P

section Issues

variable {P Q : C → Prop}

theorem Issues.andThen {x : Program C R T ε α} {rest : Except ε α → Program C R T ε β}
    (hx : x.Issues P) (hrest : ∀ result, (rest result).Issues P) : (x.andThen rest).Issues P := by
  induction x with
  | done result => exact hrest result
  | issue c next ih => exact ⟨hx.1, fun reply => ih reply (hx.2 reply)⟩
  | clock next ih => exact fun t => ih t (hx t)

theorem Issues.bind {x : Program C R T ε α} {f : α → Program C R T ε β} (hx : x.Issues P)
    (hf : ∀ a, (f a).Issues P) : (x >>= f).Issues P := by
  refine Issues.andThen hx (fun result => ?_)
  cases result with
  | ok a => exact hf a
  | error e => exact trivial

theorem Issues.tryCatch {x : Program C R T ε α} {h : ε → Program C R T ε α} (hx : x.Issues P)
    (hh : ∀ e, (h e).Issues P) : (tryCatch x h).Issues P := by
  refine Issues.andThen hx (fun result => ?_)
  cases result with
  | ok a => exact trivial
  | error e => exact hh e

theorem Issues.pure (a : α) : (pure a : Program C R T ε α).Issues P := trivial

theorem Issues.command {c : C} (h : P c) : (command c : Program C R T ε R).Issues P :=
  ⟨h, fun _ => trivial⟩

theorem Issues.mono {x : Program C R T ε α} (hx : x.Issues P) (h : ∀ c, P c → Q c) :
    x.Issues Q := by
  induction x with
  | done result => exact trivial
  | issue c next ih => exact ⟨h c hx.1, fun reply => ih reply (hx.2 reply)⟩
  | clock next ih => exact fun t => ih t (hx t)

end Issues

/-! ## §4. Debts. -/

/-- A command that `opens` is followed at once by one that `settles`, unless the
client has met an error; `owing` says that the program begins with that one. -/
def Balanced (opens settles : C → Bool) : (owing : Bool) → Program C R T ε α → Prop
  | owing, done _ => owing = false
  | false, issue c next =>
      (∀ reply, (next (.ok reply)).Balanced opens settles (opens c))
        ∧ ∀ e, (next (.error e)).Balanced opens settles false
  | true, issue c next =>
      settles c = true ∧ opens c = false ∧ ∀ reply, (next reply).Balanced opens settles false
  | false, clock next => ∀ t, (next t).Balanced opens settles false
  | true, clock _ => False

section Balanced

variable {opens settles : C → Bool}

theorem Balanced.andThen {x : Program C R T ε α} {rest : Except ε α → Program C R T ε β}
    {owing : Bool} (hx : x.Balanced opens settles owing)
    (hrest : ∀ result, (rest result).Balanced opens settles false) :
    (x.andThen rest).Balanced opens settles owing := by
  induction x generalizing owing with
  | done result =>
      obtain rfl : owing = false := hx
      exact hrest result
  | issue c next ih =>
      cases owing with
      | false => exact ⟨fun reply => ih _ (hx.1 reply), fun e => ih _ (hx.2 e)⟩
      | true => exact ⟨hx.1, hx.2.1, fun reply => ih _ (hx.2.2 reply)⟩
  | clock next ih =>
      cases owing with
      | false => exact fun t => ih t (hx t)
      | true => exact hx.elim

/-- A command that opens nothing. -/
theorem Balanced.skip {c : C} {next : Except ε R → Program C R T ε α} (hc : opens c = false)
    (hnext : ∀ reply, (next reply).Balanced opens settles false) :
    (issue c next).Balanced opens settles false := by
  refine ⟨fun reply => ?_, fun e => hnext _⟩
  rw [hc]
  exact hnext _

/-- A command that opens, and the one that settles. -/
theorem Balanced.pair {c d : C} {next rest : Except ε R → Program C R T ε α}
    (hnext : ∀ reply, next (.ok reply) = issue d rest) (hc : opens c = true)
    (hd : settles d = true) (hd' : opens d = false)
    (herror : ∀ e, (next (.error e)).Balanced opens settles false)
    (hrest : ∀ reply, (rest reply).Balanced opens settles false) :
    (issue c next).Balanced opens settles false := by
  refine ⟨fun reply => ?_, herror⟩
  rw [hc, hnext]
  exact ⟨hd, hd', hrest⟩

/-- A program that opens nothing owes nothing. -/
theorem Balanced.of_issues {x : Program C R T ε α} (h : x.Issues (fun c => opens c = false)) :
    x.Balanced opens settles false := by
  induction x with
  | done result => exact rfl
  | issue c next ih =>
      refine ⟨fun reply => ?_, fun e => ih _ (h.2 _)⟩
      rw [h.1]
      exact ih _ (h.2 _)
  | clock next ih => exact fun t => ih t (h t)

/-- A program that owes settles with its next command. -/
theorem Balanced.settles_next {x : Program C R T ε α} (h : x.Balanced opens settles true) :
    ∃ c next, x = issue c next ∧ settles c = true := by
  cases x with
  | done result => cases h
  | issue c next => exact ⟨c, next, rfl, h.1⟩
  | clock next => exact h.elim

end Balanced

end Program

end FinCore.Concurrent

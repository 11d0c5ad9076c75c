/-
  FinCore.Concurrent.Clients
  ──────────────────────────
  Several clients of one server.

  The server executes one command at a time; between two commands of a client
  those of others may get in, a command may get lost on its way and so may its
  answer.  `step` performs one act of one client, and `Stepped` says all that an
  act can do.  Three rules follow every interleaving: what each program keeps to
  itself (`run_local`), how much clients have opened and not yet settled
  (`run_balanced`), and that calls with nothing in common do not notice each
  other (`run_separate`).
-/
import FinCore.Concurrent.Program

namespace FinCore.Concurrent

open FinCore.Cxx

/-! ## §1. Acts. -/

/-- A command that the server has executed, for a call of a client. -/
structure Execution (ι K C : Type) where
  client : ι
  call : K
  now : ℤ
  command : C

/-- A server with data `D` and its clients, each with the call that it is
performing. -/
structure Clients (ι K C R D T ε α : Type) where
  now : ℤ
  data : D
  running : ι → Option (K × Program C R T ε α)
  /-- The commands executed so far. -/
  trace : List (Execution ι K C)
  /-- The calls that have ended. -/
  results : List (ι × K × Except ε α)
  /-- The calls that were handed an error, once for each. -/
  errors : List (ι × K)

/-- What becomes of a command. -/
inductive Delivery (ε : Type) where
  | answered
  /-- It does not reach the server. -/
  | failed (e : ε)
  /-- The server gets it, and the answer is lost. -/
  | lost (e : ε)

inductive Act (ι K T ε : Type) where
  | idle
  | start (client : ι) (call : K)
  | command (client : ι) (delivery : Delivery ε)
  | clock (client : ι) (reading : T)
  | finish (client : ι)

variable {ι K C R D T ε α V : Type} [DecidableEq ι]

namespace Clients

/-- The client goes on with `rest`. -/
def proceed (s : Clients ι K C R D T ε α) (i : ι) (k : K) (rest : Program C R T ε α) :
    Clients ι K C R D T ε α :=
  { s with running := Function.update s.running i (some (k, rest)) }

/-- The client's call has ended. -/
def ended (s : Clients ι K C R D T ε α) (i : ι) (k : K) (result : Except ε α) :
    Clients ι K C R D T ε α :=
  { s with running := Function.update s.running i none
           results := s.results ++ [(i, k, result)] }

/-- The client has been handed an error. -/
def handed (s : Clients ι K C R D T ε α) (i : ι) (k : K) : Clients ι K C R D T ε α :=
  { s with errors := s.errors ++ [(i, k)] }

/-- The server has executed a command. -/
def executed (s : Clients ι K C R D T ε α) (i : ι) (k : K) (c : C) (data : D) :
    Clients ι K C R D T ε α :=
  { s with data := data, trace := s.trace ++ [⟨i, k, s.now, c⟩] }

end Clients

section Steps

variable (program : ι → K → Program C R T ε α) (serve : ℤ → C → D → Except ε (R × D))

/-- One act; one that cannot be performed changes nothing.  A command that the
server refuses has no effect. -/
def act (s : Clients ι K C R D T ε α) : Act ι K T ε → Clients ι K C R D T ε α
  | .idle => s
  | .start i k =>
      match s.running i with
      | none => s.proceed i k (program i k)
      | some _ => s
  | .command i delivery =>
      match s.running i with
      | some (k, .issue c next) =>
          match delivery, serve s.now c s.data with
          | .failed e, _ => (s.handed i k).proceed i k (next (.error e))
          | .answered, .ok (reply, data) => (s.executed i k c data).proceed i k (next (.ok reply))
          | .answered, .error e => (s.handed i k).proceed i k (next (.error e))
          | .lost e, .ok (_, data) =>
              ((s.executed i k c data).handed i k).proceed i k (next (.error e))
          | .lost e, .error _ => (s.handed i k).proceed i k (next (.error e))
      | _ => s
  | .clock i reading =>
      match s.running i with
      | some (k, .clock next) => s.proceed i k (next reading)
      | _ => s
  | .finish i =>
      match s.running i with
      | some (k, .done result) => s.ended i k result
      | _ => s

/-- Time passes, then one act. -/
def step (s : Clients ι K C R D T ε α) (event : ℕ × Act ι K T ε) : Clients ι K C R D T ε α :=
  act program serve { s with now := s.now + event.1 } event.2

def run (events : List (ℕ × Act ι K T ε)) (s : Clients ι K C R D T ε α) :
    Clients ι K C R D T ε α :=
  events.foldl (step program serve) s

/-- What an act can do. -/
inductive Stepped (s : Clients ι K C R D T ε α) : Act ι K T ε → Clients ι K C R D T ε α → Prop
  | idle {a : Act ι K T ε} : Stepped s a s
  | start {i : ι} {k : K} (hidle : s.running i = none) :
      Stepped s (.start i k) (s.proceed i k (program i k))
  | answered {i : ι} {k : K} {c : C} {next : Except ε R → Program C R T ε α} {reply : R} {data : D}
      {delivery : Delivery ε} (hrunning : s.running i = some (k, .issue c next))
      (hserve : serve s.now c s.data = .ok (reply, data)) :
      Stepped s (.command i delivery) ((s.executed i k c data).proceed i k (next (.ok reply)))
  | handed {i : ι} {k : K} {c : C} {next : Except ε R → Program C R T ε α} {delivery : Delivery ε}
      (e : ε) (hrunning : s.running i = some (k, .issue c next)) :
      Stepped s (.command i delivery) ((s.handed i k).proceed i k (next (.error e)))
  | lost {i : ι} {k : K} {c : C} {next : Except ε R → Program C R T ε α} {reply : R} {data : D}
      {delivery : Delivery ε} (e : ε) (hrunning : s.running i = some (k, .issue c next))
      (hserve : serve s.now c s.data = .ok (reply, data)) :
      Stepped s (.command i delivery)
        (((s.executed i k c data).handed i k).proceed i k (next (.error e)))
  | clock {i : ι} {k : K} {next : T → Program C R T ε α} {reading : T}
      (hrunning : s.running i = some (k, .clock next)) :
      Stepped s (.clock i reading) (s.proceed i k (next reading))
  | finish {i : ι} {k : K} {result : Except ε α} (hrunning : s.running i = some (k, .done result)) :
      Stepped s (.finish i) (s.ended i k result)

theorem act_stepped (s : Clients ι K C R D T ε α) (a : Act ι K T ε) :
    Stepped program serve s a (act program serve s a) := by
  cases a with
  | idle => exact .idle
  | start i k =>
      cases hrunning : s.running i with
      | none =>
          simp only [act, hrunning]
          exact .start hrunning
      | some _ =>
          simp only [act, hrunning]
          exact .idle
  | command i delivery =>
      rcases hrunning : s.running i with _ | ⟨k, result | ⟨c, next⟩ | next⟩
      · simp only [act, hrunning]
        exact .idle
      · simp only [act, hrunning]
        exact .idle
      · rcases hserve : serve s.now c s.data with e | ⟨reply, data⟩
        · cases delivery <;> simp only [act, hrunning, hserve] <;> exact .handed _ hrunning
        · cases delivery with
          | answered =>
              simp only [act, hrunning, hserve]
              exact .answered hrunning hserve
          | failed e =>
              simp only [act, hrunning]
              exact .handed e hrunning
          | lost e =>
              simp only [act, hrunning, hserve]
              exact .lost e hrunning hserve
      · simp only [act, hrunning]
        exact .idle
  | clock i reading =>
      rcases hrunning : s.running i with _ | ⟨k, result | ⟨c, next⟩ | next⟩
      · simp only [act, hrunning]
        exact .idle
      · simp only [act, hrunning]
        exact .idle
      · simp only [act, hrunning]
        exact .idle
      · simp only [act, hrunning]
        exact .clock hrunning
  | finish i =>
      rcases hrunning : s.running i with _ | ⟨k, result | ⟨c, next⟩ | next⟩
      · simp only [act, hrunning]
        exact .idle
      · simp only [act, hrunning]
        exact .finish hrunning
      · simp only [act, hrunning]
        exact .idle
      · simp only [act, hrunning]
        exact .idle

/-- What holds initially and after each act, whatever time passes, holds after
every run. -/
theorem run_invariant {I : Clients ι K C R D T ε α → Prop}
    (htime : ∀ s (n : ℕ), I s → I { s with now := s.now + n })
    (hact : ∀ s a t, Stepped program serve s a t → I s → I t)
    (events : List (ℕ × Act ι K T ε)) :
    ∀ {s : Clients ι K C R D T ε α}, I s → I (run program serve events s) := by
  induction events with
  | nil => exact id
  | cons event rest ih =>
      intro s hs
      exact ih (hact _ event.2 _ (act_stepped program serve _ event.2) (htime s event.1 hs))

end Steps

/-! ## §2. What the clients are at. -/

namespace Clients

variable {s : Clients ι K C R D T ε α}

/-- Nothing has happened yet. -/
def initial (now : ℤ) (data : D) : Clients ι K C R D T ε α where
  now := now
  data := data
  running _ := none
  trace := []
  results := []
  errors := []

/-- `P` holds of every call in progress and what is left of its program. -/
def Everyone (P : ι → K → Program C R T ε α → Prop) (s : Clients ι K C R D T ε α) : Prop :=
  ∀ i k p, s.running i = some (k, p) → P i k p

section Everyone

variable {P : ι → K → Program C R T ε α → Prop}

omit [DecidableEq ι] in
theorem Everyone.initial (now : ℤ) (data : D) :
    Everyone P (Clients.initial now data : Clients ι K C R D T ε α) := nofun

omit [DecidableEq ι] in
theorem Everyone.mono {Q : ι → K → Program C R T ε α → Prop} (h : Everyone P s)
    (hle : ∀ i k p, P i k p → Q i k p) : Everyone Q s :=
  fun i k p hrunning => hle i k p (h i k p hrunning)

theorem Everyone.proceed (h : Everyone P s) {i : ι} {k : K} {p : Program C R T ε α}
    (hp : P i k p) : Everyone P (s.proceed i k p) := by
  intro j k' p' hrunning
  change Function.update s.running i (some (k, p)) j = some (k', p') at hrunning
  rw [Function.update_apply] at hrunning
  by_cases hj : j = i
  · rw [if_pos hj, Option.some.injEq, Prod.mk.injEq] at hrunning
    rw [hj, ← hrunning.1, ← hrunning.2]
    exact hp
  · rw [if_neg hj] at hrunning
    exact h j k' p' hrunning

theorem Everyone.ended (h : Everyone P s) (i : ι) (k : K) (result : Except ε α) :
    Everyone P (s.ended i k result) := by
  intro j k' p' hrunning
  change Function.update s.running i none j = some (k', p') at hrunning
  rw [Function.update_apply] at hrunning
  by_cases hj : j = i
  · rw [if_pos hj] at hrunning
    cases hrunning
  · rw [if_neg hj] at hrunning
    exact h j k' p' hrunning

end Everyone

end Clients

open Clients

section Rules

variable {program : ι → K → Program C R T ε α} {serve : ℤ → C → D → Except ε (R × D)}

/-- What is left of a call issues what the call does. -/
theorem issues_step {P : ι → K → C → Prop} (h : ∀ i k, (program i k).Issues (P i k))
    {s t : Clients ι K C R D T ε α} {a : Act ι K T ε} (hstep : Stepped program serve s a t)
    (hs : Everyone (fun i k p => p.Issues (P i k)) s) :
    Everyone (fun i k p => p.Issues (P i k)) t := by
  cases hstep with
  | idle => exact hs
  | start _ => exact hs.proceed (h _ _)
  | answered hi _ =>
      exact Everyone.proceed (s := s.executed _ _ _ _) hs ((hs _ _ _ hi).2 _)
  | handed _ hi => exact Everyone.proceed (s := s.handed _ _) hs ((hs _ _ _ hi).2 _)
  | lost _ hi _ =>
      exact Everyone.proceed (s := (s.executed _ _ _ _).handed _ _) hs ((hs _ _ _ hi).2 _)
  | clock hi => exact hs.proceed (hs _ _ _ hi _)
  | finish _ => exact hs.ended _ _ _

/-- Every command that is executed is one of its call's. -/
theorem run_issues {P : ι → K → C → Prop} (h : ∀ i k, (program i k).Issues (P i k)) (now : ℤ)
    (data : D) (events : List (ℕ × Act ι K T ε)) :
    ∀ x ∈ (run program serve events (initial now data)).trace, P x.client x.call x.command := by
  refine (run_invariant program serve
    (I := fun s => Everyone (fun i k p => p.Issues (P i k)) s
      ∧ ∀ x ∈ s.trace, P x.client x.call x.command) (fun s _ hs => hs) ?_ events
    ⟨Everyone.initial now data, nofun⟩).2
  rintro s a t hstep ⟨hrunning, htrace⟩
  refine ⟨issues_step h hstep hrunning, ?_⟩
  have hsnoc : ∀ {x : Execution ι K C}, P x.client x.call x.command →
      ∀ y ∈ s.trace ++ [x], P y.client y.call y.command := by
    intro x hx
    rw [List.forall_mem_append, List.forall_mem_singleton]
    exact ⟨htrace, hx⟩
  cases hstep with
  | idle | start _ | handed _ _ | clock _ | finish _ => exact htrace
  | answered hi _ | lost _ hi _ => exact hsnoc (hrunning _ _ _ hi).1

/-- The data after a trace of commands. -/
def replay (serve : ℤ → C → D → Except ε (R × D)) (trace : List (Execution ι K C)) (data : D) : D :=
  trace.foldl (fun data x =>
    match serve x.now x.command data with
    | .ok (_, data) => data
    | .error _ => data) data

omit [DecidableEq ι] in
theorem replay_concat (trace : List (Execution ι K C)) (x : Execution ι K C) (data : D) :
    replay serve (trace ++ [x]) data
      = match serve x.now x.command (replay serve trace data) with
        | .ok (_, data) => data
        | .error _ => replay serve trace data := by
  unfold replay
  rw [List.foldl_append, List.foldl_cons, List.foldl_nil]

omit [DecidableEq ι] in
theorem replay_snoc {trace : List (Execution ι K C)} {x : Execution ι K C} {data data' : D}
    {reply : R} (h : serve x.now x.command (replay serve trace data) = .ok (reply, data')) :
    replay serve (trace ++ [x]) data = data' := by
  rw [replay_concat, h]

/-- **The data are what the trace has made of them.** -/
theorem run_data (now : ℤ) (data : D) (events : List (ℕ × Act ι K T ε)) :
    (run program serve events (initial now data)).data
      = replay serve (run program serve events (initial now data)).trace data := by
  refine run_invariant program serve (I := fun s => s.data = replay serve s.trace data)
    (fun s _ hs => hs) ?_ events rfl
  intro s a t hstep hs
  cases hstep with
  | idle | start _ | handed _ _ | clock _ | finish _ => exact hs
  | answered _ hserve | lost _ _ hserve =>
      rw [hs] at hserve
      exact (replay_snoc hserve).symm

/-- No command was executed later than now. -/
theorem run_clock (now : ℤ) (data : D) (events : List (ℕ × Act ι K T ε)) :
    ∀ x ∈ (run program serve events (initial now data)).trace,
      x.now ≤ (run program serve events (initial now data)).now := by
  refine run_invariant program serve (I := fun s => ∀ x ∈ s.trace, x.now ≤ s.now) ?_ ?_ events nofun
  · intro s n hs x hx
    have hle := hs x hx
    show x.now ≤ s.now + n
    omega
  · intro s a t hstep hs
    cases hstep with
    | idle | start _ | handed _ _ | clock _ | finish _ => exact hs
    | answered _ _ | lost _ _ _ =>
        intro x hx
        rcases List.mem_append.mp hx with hx | hx
        · exact hs x hx
        · rw [List.mem_singleton.mp hx]
          exact le_rfl

/-! ## §3. What a program keeps to itself. -/

/-- A property of a call in progress that outlives what others do: it is about
what is left of its program and the trace so far. -/
structure LocalInvariant (program : ι → K → Program C R T ε α)
    (serve : ℤ → C → D → Except ε (R × D)) (data : D)
    (L : ι → K → Program C R T ε α → List (Execution ι K C) → Prop) : Prop where
  start : ∀ i k trace, L i k (program i k) trace
  later : ∀ i k p trace x, L i k p trace → L i k p (trace ++ [x])
  answered : ∀ i k c next trace now reply data', L i k (.issue c next) trace →
    serve now c (replay serve trace data) = .ok (reply, data') →
    L i k (next (.ok reply)) (trace ++ [⟨i, k, now, c⟩])
  handed : ∀ i k c next trace e, L i k (.issue c next) trace → L i k (next (.error e)) trace
  clock : ∀ i k next trace reading, L i k (.clock next) trace → L i k (next reading) trace

/-- **It holds of every call in progress, and of every one that has ended.** -/
theorem run_local {data : D}
    {L : ι → K → Program C R T ε α → List (Execution ι K C) → Prop}
    (h : LocalInvariant program serve data L) (now : ℤ) (events : List (ℕ × Act ι K T ε)) :
    Everyone (fun i k p => L i k p (run program serve events (initial now data)).trace)
        (run program serve events (initial now data))
      ∧ ∀ i k result, (i, k, result) ∈ (run program serve events (initial now data)).results →
        L i k (.done result) (run program serve events (initial now data)).trace := by
  refine (run_invariant program serve (I := fun s => s.data = replay serve s.trace data
      ∧ Everyone (fun i k p => L i k p s.trace) s
      ∧ ∀ i k result, (i, k, result) ∈ s.results → L i k (.done result) s.trace)
    (fun s _ hs => hs) ?_ events ⟨rfl, Everyone.initial now data, nofun⟩).2
  rintro s a t hstep ⟨hdata, hrunning, hresults⟩
  have hlater : ∀ x, Everyone (fun i k p => L i k p (s.trace ++ [x])) s
      ∧ ∀ i k result, (i, k, result) ∈ s.results → L i k (.done result) (s.trace ++ [x]) :=
    fun x => ⟨hrunning.mono (fun i k p hp => h.later i k p _ x hp),
      fun i k result hmem => h.later _ _ _ _ x (hresults i k result hmem)⟩
  cases hstep with
  | idle => exact ⟨hdata, hrunning, hresults⟩
  | start _ => exact ⟨hdata, hrunning.proceed (h.start _ _ _), hresults⟩
  | @answered i k c next reply data' _ hi hserve =>
      rw [hdata] at hserve
      obtain ⟨hrunning', hresults'⟩ := hlater ⟨i, k, s.now, c⟩
      have hnext := h.answered _ _ _ _ _ _ _ _ (hrunning _ _ _ hi) hserve
      exact ⟨(replay_snoc hserve).symm,
        Everyone.proceed (s := s.executed _ _ _ _) hrunning' hnext, hresults'⟩
  | handed e hi =>
      have hnext := h.handed _ _ _ _ _ e (hrunning _ _ _ hi)
      exact ⟨hdata, Everyone.proceed (s := s.handed _ _) hrunning hnext, hresults⟩
  | @lost i k c next reply data' _ e hi hserve =>
      rw [hdata] at hserve
      obtain ⟨hrunning', hresults'⟩ := hlater ⟨i, k, s.now, c⟩
      have hnext := h.later _ _ _ _ ⟨i, k, s.now, c⟩ (h.handed _ _ _ _ _ e (hrunning _ _ _ hi))
      exact ⟨(replay_snoc hserve).symm,
        Everyone.proceed (s := (s.executed _ _ _ _).handed _ _) hrunning' hnext, hresults'⟩
  | clock hi =>
      exact ⟨hdata, hrunning.proceed (h.clock _ _ _ _ _ (hrunning _ _ _ hi)), hresults⟩
  | @finish i k result hi =>
      refine ⟨hdata, hrunning.ended _ _ _, fun j k' result' hmem => ?_⟩
      rcases List.mem_append.mp hmem with hmem | hmem
      · exact hresults j k' result' hmem
      · cases List.mem_singleton.mp hmem
        exact hrunning _ _ _ hi

/-! ## §4. Debts. -/

/-- How many commands that open have come since the last that settles. -/
def unsettled (opens settles : C → Bool) (commands : List C) : ℕ :=
  commands.foldl (fun n c => if opens c then n + 1 else if settles c then 0 else n) 0

theorem unsettled_snoc (opens settles : C → Bool) (commands : List C) (c : C) :
    unsettled opens settles (commands ++ [c])
      = if opens c then unsettled opens settles commands + 1
        else if settles c then 0 else unsettled opens settles commands := by
  unfold unsettled
  rw [List.foldl_append, List.foldl_cons, List.foldl_nil]

/-- The clients that owe, and what has been opened and not settled. -/
structure Indebted (opens settles : C → Bool) (opener : K → Bool) (owing : Finset ι)
    (s : Clients ι K C R D T ε α) : Prop where
  /-- A client that owes settles next. -/
  owes : ∀ i ∈ owing, ∃ k p, s.running i = some (k, p) ∧ opener k = true
    ∧ p.Balanced opens settles true
  free : Everyone (fun i _ p => i ∉ owing → p.Balanced opens settles false) s
  /-- Other calls open nothing. -/
  other : Everyone (fun _ k p => opener k = false → p.Issues (fun c => opens c = false)) s
  bound : unsettled opens settles (s.trace.map (·.command))
    ≤ owing.card + s.errors.countP (fun call => opener call.2)

section Indebted

variable {opens settles : C → Bool} {opener : K → Bool} {owing : Finset ι}
  {s : Clients ι K C R D T ε α}

/-- One client goes on; the others owe what they owed. -/
theorem Indebted.proceed (h : Indebted opens settles opener owing s)
    {u : Clients ι K C R D T ε α} (hrunning : u.running = s.running) {i : ι} {k : K}
    {p : Program C R T ε α} {owing₁ : Finset ι} (hothers : ∀ j, j ≠ i → (j ∈ owing₁ ↔ j ∈ owing))
    (hp : p.Balanced opens settles (decide (i ∈ owing₁))) (hopener : i ∈ owing₁ → opener k = true)
    (hissues : opener k = false → p.Issues (fun c => opens c = false))
    (hbound : unsettled opens settles (u.trace.map (·.command))
      ≤ owing₁.card + u.errors.countP (fun call => opener call.2)) :
    Indebted opens settles opener owing₁ (u.proceed i k p) where
  owes := by
    intro j hj
    by_cases hji : j = i
    · subst hji
      rw [decide_eq_true hj] at hp
      exact ⟨k, p, Function.update_self _ _ _, hopener hj, hp⟩
    · obtain ⟨k', p', hj', hp'⟩ := h.owes j ((hothers j hji).mp hj)
      refine ⟨k', p', (Function.update_of_ne hji _ _).trans ?_, hp'⟩
      rw [hrunning]
      exact hj'
  free := by
    intro j k' p' hj hmem
    change Function.update u.running i (some (k, p)) j = some (k', p') at hj
    rw [Function.update_apply, hrunning] at hj
    by_cases hji : j = i
    · subst hji
      rw [if_pos rfl, Option.some.injEq, Prod.mk.injEq] at hj
      rw [decide_eq_false hmem] at hp
      exact hj.2 ▸ hp
    · rw [if_neg hji] at hj
      exact h.free j k' p' hj (fun hold => hmem ((hothers j hji).mpr hold))
  other := by
    have hother : Everyone (fun _ k p => opener k = false → p.Issues (fun c => opens c = false))
        u := by
      intro j k' p' hj
      rw [hrunning] at hj
      exact h.other j k' p' hj
    exact hother.proceed hissues
  bound := hbound

/-- A client that owes nothing goes on without opening anything. -/
theorem Indebted.proceed_free (h : Indebted opens settles opener owing s)
    {u : Clients ι K C R D T ε α} (hrunning : u.running = s.running) {i : ι} {k : K}
    {p : Program C R T ε α} (hi : i ∉ owing) (hp : p.Balanced opens settles false)
    (hissues : opener k = false → p.Issues (fun c => opens c = false))
    (hbound : unsettled opens settles (u.trace.map (·.command))
      ≤ owing.card + u.errors.countP (fun call => opener call.2)) :
    Indebted opens settles opener owing (u.proceed i k p) := by
  refine h.proceed hrunning (fun _ _ => Iff.rfl) ?_ (fun hmem => absurd hmem hi) hissues hbound
  rw [decide_eq_false hi]
  exact hp

/-- A client that owed owes nothing any more. -/
theorem Indebted.proceed_paid (h : Indebted opens settles opener owing s)
    {u : Clients ι K C R D T ε α} (hrunning : u.running = s.running) {i : ι} {k : K}
    {p : Program C R T ε α} (hp : p.Balanced opens settles false)
    (hissues : opener k = false → p.Issues (fun c => opens c = false))
    (hbound : unsettled opens settles (u.trace.map (·.command))
      ≤ (owing.erase i).card + u.errors.countP (fun call => opener call.2)) :
    Indebted opens settles opener (owing.erase i) (u.proceed i k p) := by
  refine h.proceed hrunning (fun j hj => ?_) ?_
    (fun hmem => absurd hmem (Finset.notMem_erase i owing)) hissues hbound
  · rw [Finset.mem_erase, and_iff_right hj]
  · rw [decide_eq_false (Finset.notMem_erase i owing)]
    exact hp

omit [DecidableEq ι] in
/-- Only an opener opens. -/
theorem Indebted.opener_of (h : Indebted opens settles opener owing s) {i : ι} {k : K} {c : C}
    {next : Except ε R → Program C R T ε α} (hi : s.running i = some (k, .issue c next))
    (hopens : opens c = true) : opener k = true := by
  by_contra hk
  have hc : opens c = false := (h.other i k _ hi (eq_false_of_ne_true hk)).1
  rw [hopens] at hc
  cases hc

omit [DecidableEq ι] in
theorem countP_handed (i : ι) (k : K) :
    (s.handed i k).errors.countP (fun call => opener call.2)
      = s.errors.countP (fun call => opener call.2) + if opener k then 1 else 0 := by
  show (s.errors ++ [(i, k)]).countP _ = _
  rw [List.countP_append, List.countP_singleton]

omit [DecidableEq ι] in
theorem unsettled_executed (s : Clients ι K C R D T ε α) (i : ι) (k : K) (c : C) (data : D) :
    unsettled opens settles ((s.executed i k c data).trace.map (·.command))
      = if opens c then unsettled opens settles (s.trace.map (·.command)) + 1
        else if settles c then 0 else unsettled opens settles (s.trace.map (·.command)) := by
  show unsettled opens settles ((s.trace ++ [_]).map _) = _
  rw [List.map_append, List.map_singleton, unsettled_snoc]

/-- A command is executed and answered. -/
theorem Indebted.answered (h : Indebted opens settles opener owing s) {i : ι} {k : K} {c : C}
    {next : Except ε R → Program C R T ε α} (hi : s.running i = some (k, .issue c next)) (reply : R)
    (data : D) :
    ∃ owing', Indebted opens settles opener owing'
      ((s.executed i k c data).proceed i k (next (.ok reply))) := by
  have hbound := h.bound
  have hissues := fun hk => (h.other i k _ hi hk).2 (.ok reply)
  by_cases hmem : i ∈ owing
  · obtain ⟨k', p', hrunning, _, hp⟩ := h.owes i hmem
    cases hi.symm.trans hrunning
    refine ⟨owing.erase i, h.proceed_paid (u := s.executed i k c data) rfl (hp.2.2 _) hissues ?_⟩
    rw [unsettled_executed, hp.2.1, hp.1]
    exact Nat.zero_le _
  · have hp := h.free i k _ hi hmem
    by_cases hopens : opens c = true
    · -- from here on the client owes
      have hopener := h.opener_of hi hopens
      refine ⟨insert i owing, h.proceed (u := s.executed i k c data) rfl (fun j hj => ?_) ?_
        (fun _ => hopener) hissues ?_⟩
      · rw [Finset.mem_insert, or_iff_right hj]
      · have hnext := hp.1 reply
        rw [hopens] at hnext
        rw [decide_eq_true (Finset.mem_insert_self i owing)]
        exact hnext
      · rw [unsettled_executed, if_pos hopens, Finset.card_insert_of_notMem hmem]
        show _ ≤ owing.card + 1 + s.errors.countP _
        omega
    · have hnext := hp.1 reply
      rw [eq_false_of_ne_true hopens] at hnext
      refine ⟨owing, h.proceed_free (u := s.executed i k c data) rfl hmem hnext hissues ?_⟩
      rw [unsettled_executed, if_neg hopens]
      show _ ≤ owing.card + s.errors.countP _
      split <;> omega

/-- A client is handed an error for a command that has not been executed. -/
theorem Indebted.failed (h : Indebted opens settles opener owing s) {i : ι} {k : K} {c : C}
    {next : Except ε R → Program C R T ε α} (hi : s.running i = some (k, .issue c next)) (e : ε) :
    ∃ owing', Indebted opens settles opener owing'
      ((s.handed i k).proceed i k (next (.error e))) := by
  have hbound := h.bound
  have hissues := fun hk => (h.other i k _ hi hk).2 (.error e)
  by_cases hmem : i ∈ owing
  · obtain ⟨k', p', hrunning, hopener, hp⟩ := h.owes i hmem
    cases hi.symm.trans hrunning
    refine ⟨owing.erase i, h.proceed_paid (u := s.handed i k) rfl (hp.2.2 _) hissues ?_⟩
    -- the debt is now that of a call that has met an error
    rw [countP_handed, if_pos hopener, Finset.card_erase_of_mem hmem]
    have hpos := Finset.card_pos.mpr ⟨i, hmem⟩
    show unsettled opens settles (s.trace.map _) ≤ _
    omega
  · refine ⟨owing, h.proceed_free (u := s.handed i k) rfl hmem ((h.free i k _ hi hmem).2 e)
      hissues ?_⟩
    rw [countP_handed]
    show unsettled opens settles (s.trace.map _) ≤ _
    omega

/-- A command is executed and its answer lost. -/
theorem Indebted.lost (h : Indebted opens settles opener owing s) {i : ι} {k : K} {c : C}
    {next : Except ε R → Program C R T ε α} (hi : s.running i = some (k, .issue c next)) (data : D)
    (e : ε) :
    ∃ owing', Indebted opens settles opener owing'
      (((s.executed i k c data).handed i k).proceed i k (next (.error e))) := by
  have hbound := h.bound
  have hissues := fun hk => (h.other i k _ hi hk).2 (.error e)
  by_cases hmem : i ∈ owing
  · obtain ⟨k', p', hrunning, _, hp⟩ := h.owes i hmem
    cases hi.symm.trans hrunning
    refine ⟨owing.erase i, h.proceed_paid (u := (s.executed i k c data).handed i k) rfl
      (hp.2.2 _) hissues ?_⟩
    show unsettled opens settles ((s.executed i k c data).trace.map _) ≤ _
    rw [unsettled_executed, hp.2.1, hp.1]
    exact Nat.zero_le _
  · refine ⟨owing, h.proceed_free (u := (s.executed i k c data).handed i k) rfl hmem
      ((h.free i k _ hi hmem).2 e) hissues ?_⟩
    show unsettled opens settles ((s.executed i k c data).trace.map _) ≤ _
    rw [unsettled_executed, countP_handed]
    show _ ≤ owing.card + (s.errors.countP _ + _)
    by_cases hopens : opens c = true
    · have hopener := h.opener_of hi hopens
      rw [if_pos hopens, if_pos hopener]
      omega
    · rw [if_neg hopens]
      split <;> omega

/-- **One act**: what is opened and not settled is owed by a client, or was
opened by one that has met an error. -/
theorem Indebted.step {program : ι → K → Program C R T ε α}
    {serve : ℤ → C → D → Except ε (R × D)}
    (hprogram : ∀ i k, (program i k).Balanced opens settles false)
    (hother : ∀ i k, opener k = false → (program i k).Issues (fun c => opens c = false))
    (h : Indebted opens settles opener owing s) {a : Act ι K T ε} {t : Clients ι K C R D T ε α}
    (hstep : Stepped program serve s a t) :
    ∃ owing', Indebted opens settles opener owing' t := by
  have hbound := h.bound
  cases hstep with
  | idle => exact ⟨owing, h⟩
  | @start i k hidle =>
      -- whoever owes is in the middle of a call
      have hi : i ∉ owing := by
        intro hmem
        obtain ⟨_, _, hrunning, _⟩ := h.owes i hmem
        rw [hidle] at hrunning
        cases hrunning
      exact ⟨owing, h.proceed_free rfl hi (hprogram i k) (hother i k) hbound⟩
  | @answered i k c next reply data _ hi _ => exact h.answered hi reply data
  | @handed i k c next _ e hi => exact h.failed hi e
  | @lost i k c next reply data _ e hi _ => exact h.lost hi data e
  | @clock i k next reading hi =>
      have hmem : i ∉ owing := by
        intro hmem
        obtain ⟨k', p', hrunning, _, hp⟩ := h.owes i hmem
        cases hi.symm.trans hrunning
        exact hp
      exact ⟨owing, h.proceed_free rfl hmem (h.free i k _ hi hmem reading)
        (fun hk => h.other i k _ hi hk reading) hbound⟩
  | @finish i k result hi =>
      have hmem : i ∉ owing := by
        intro hmem
        obtain ⟨k', p', hrunning, _, hp⟩ := h.owes i hmem
        cases hi.symm.trans hrunning
        cases hp
      refine ⟨owing, ?_, h.free.ended _ _ _, h.other.ended _ _ _, hbound⟩
      intro j hj
      obtain ⟨k', p', hrunning, hp⟩ := h.owes j hj
      have hne : j ≠ i := fun heq => hmem (heq ▸ hj)
      exact ⟨k', p', (Function.update_of_ne hne _ _).trans hrunning, hp⟩

/-- **What is opened and not settled is owed**, after every run. -/
theorem run_balanced {program : ι → K → Program C R T ε α}
    {serve : ℤ → C → D → Except ε (R × D)}
    (hprogram : ∀ i k, (program i k).Balanced opens settles false)
    (hother : ∀ i k, opener k = false → (program i k).Issues (fun c => opens c = false))
    (now : ℤ) (data : D) (events : List (ℕ × Act ι K T ε)) :
    ∃ owing, Indebted opens settles opener owing (run program serve events (initial now data)) := by
  refine run_invariant program serve (I := fun s => ∃ owing, Indebted opens settles opener owing s)
    ?_ ?_ events ⟨∅, nofun, Everyone.initial now data, Everyone.initial now data, le_rfl⟩
  · rintro s n ⟨owing, hs⟩
    exact ⟨owing, hs.owes, hs.free, hs.other, hs.bound⟩
  · rintro s a t hstep ⟨owing, hs⟩
    exact hs.step hprogram hother hstep

end Indebted

end Rules

/-! ## §5. Calls with nothing in common. -/

/-- The calls that are `mine` issue the commands that are `Own`, and others do
not; and a command that is not `Own` leaves `view` of the data alone. -/
structure Separate (program : ι → K → Program C R T ε α) (serve : ℤ → C → D → Except ε (R × D))
    (mine : K → Bool) (Own : C → Prop) (view : D → V) : Prop where
  calls : ∀ i k, (program i k).Issues (fun c => Own c ↔ mine k = true)
  own : ∀ now c data data', Own c → view data' = view data →
    (serve now c data').map (fun served => (served.1, view served.2))
      = (serve now c data).map (fun served => (served.1, view served.2))
  other : ∀ now c data reply data', ¬ Own c → serve now c data = .ok (reply, data') →
    view data' = view data

/-- The second system is the first with the calls that are `mine` only. -/
structure Agrees (mine : K → Bool) (view : D → V) (s s' : Clients ι K C R D T ε α) : Prop where
  now : s'.now = s.now
  data : view s'.data = view s.data
  running : ∀ i, s'.running i = (s.running i).filter (fun call => mine call.1)
  trace : s'.trace = s.trace.filter (fun x => mine x.call)
  results : s'.results = s.results.filter (fun result => mine result.2.1)
  errors : s'.errors = s.errors.filter (fun call => mine call.2)

/-- The act is of a call that is `mine`. -/
def concerns (mine : K → Bool) (s : Clients ι K C R D T ε α) : Act ι K T ε → Bool
  | .idle => false
  | .start i k => (s.running i).isNone && mine k
  | .command i _ => (s.running i).any (fun call => mine call.1)
  | .clock i _ => (s.running i).any (fun call => mine call.1)
  | .finish i => (s.running i).any (fun call => mine call.1)

/-- The events of a run with the calls that are not `mine` deleted. -/
def ownEvents (program : ι → K → Program C R T ε α) (serve : ℤ → C → D → Except ε (R × D))
    (mine : K → Bool) :
    List (ℕ × Act ι K T ε) → Clients ι K C R D T ε α → List (ℕ × Act ι K T ε)
  | [], _ => []
  | event :: rest, s =>
      (event.1, if concerns mine s event.2 then event.2 else .idle)
        :: ownEvents program serve mine rest (step program serve s event)

theorem filter_snoc {β : Type} (q : β → Bool) (l : List β) (x : β) :
    (l ++ [x]).filter q = if q x = true then l.filter q ++ [x] else l.filter q := by
  rw [List.filter_append, List.filter_singleton]
  cases q x with
  | false => exact List.append_nil _
  | true => rfl

section Agrees

variable {mine : K → Bool} {view : D → V} {s s' : Clients ι K C R D T ε α}

theorem Agrees.proceed (h : Agrees mine view s s') (i : ι) {k : K} (hk : mine k = true)
    (p : Program C R T ε α) : Agrees mine view (s.proceed i k p) (s'.proceed i k p) := by
  refine ⟨h.now, h.data, fun j => ?_, h.trace, h.results, h.errors⟩
  show Function.update s'.running i _ j = (Function.update s.running i _ j).filter _
  rw [Function.update_apply, Function.update_apply, h.running]
  by_cases hj : j = i
  · rw [if_pos hj, if_pos hj, Option.filter_some, if_pos hk]
  · rw [if_neg hj, if_neg hj]

/-- A call that is not `mine` is not there in the second system. -/
theorem Agrees.proceed_other (h : Agrees mine view s s') {i : ι} {k : K} (hk : ¬ mine k = true)
    (hi : s'.running i = none) (p : Program C R T ε α) :
    Agrees mine view (s.proceed i k p) s' := by
  refine ⟨h.now, h.data, fun j => ?_, h.trace, h.results, h.errors⟩
  show s'.running j = (Function.update s.running i _ j).filter _
  rw [Function.update_apply]
  by_cases hj : j = i
  · rw [if_pos hj, Option.filter_some, if_neg hk, hj, hi]
  · rw [if_neg hj]
    exact h.running j

theorem Agrees.ended (h : Agrees mine view s s') (i : ι) {k : K} (hk : mine k = true)
    (result : Except ε α) : Agrees mine view (s.ended i k result) (s'.ended i k result) := by
  refine ⟨h.now, h.data, fun j => ?_, h.trace, ?_, h.errors⟩
  · show Function.update s'.running i none j = (Function.update s.running i none j).filter _
    rw [Function.update_apply, Function.update_apply, h.running]
    by_cases hj : j = i
    · rw [if_pos hj, if_pos hj, Option.filter_none]
    · rw [if_neg hj, if_neg hj]
  · show s'.results ++ [_] = (s.results ++ [_]).filter _
    rw [filter_snoc, if_pos hk, h.results]

theorem Agrees.ended_other (h : Agrees mine view s s') {i : ι} {k : K} (hk : ¬ mine k = true)
    (hi : s'.running i = none) (result : Except ε α) :
    Agrees mine view (s.ended i k result) s' := by
  refine ⟨h.now, h.data, fun j => ?_, h.trace, ?_, h.errors⟩
  · show s'.running j = (Function.update s.running i none j).filter _
    rw [Function.update_apply]
    by_cases hj : j = i
    · rw [if_pos hj, hj, hi, Option.filter_none]
    · rw [if_neg hj]
      exact h.running j
  · show s'.results = (s.results ++ [_]).filter _
    rw [filter_snoc, if_neg hk, h.results]

omit [DecidableEq ι] in
theorem Agrees.handed (h : Agrees mine view s s') (i : ι) {k : K} (hk : mine k = true) :
    Agrees mine view (s.handed i k) (s'.handed i k) := by
  refine ⟨h.now, h.data, h.running, h.trace, h.results, ?_⟩
  show s'.errors ++ [_] = (s.errors ++ [_]).filter _
  rw [filter_snoc, if_pos hk, h.errors]

omit [DecidableEq ι] in
theorem Agrees.handed_other (h : Agrees mine view s s') (i : ι) {k : K} (hk : ¬ mine k = true) :
    Agrees mine view (s.handed i k) s' := by
  refine ⟨h.now, h.data, h.running, h.trace, h.results, ?_⟩
  show s'.errors = (s.errors ++ [_]).filter _
  rw [filter_snoc, if_neg hk, h.errors]

omit [DecidableEq ι] in
theorem Agrees.executed (h : Agrees mine view s s') (i : ι) {k : K} (hk : mine k = true) (c : C)
    {data data' : D} (hdata : view data' = view data) :
    Agrees mine view (s.executed i k c data) (s'.executed i k c data') := by
  refine ⟨h.now, hdata, h.running, ?_, h.results, h.errors⟩
  show s'.trace ++ [Execution.mk i k s'.now c] = (s.trace ++ [_]).filter _
  rw [filter_snoc, if_pos hk, h.trace, h.now]

omit [DecidableEq ι] in
theorem Agrees.executed_other (h : Agrees mine view s s') (i : ι) {k : K} (hk : ¬ mine k = true)
    (c : C) {data : D} (hdata : view data = view s.data) :
    Agrees mine view (s.executed i k c data) s' := by
  refine ⟨h.now, h.data.trans hdata.symm, h.running, ?_, h.results, h.errors⟩
  show s'.trace = (s.trace ++ [_]).filter _
  rw [filter_snoc, if_neg hk, h.trace]

section Act

variable {program : ι → K → Program C R T ε α} {serve : ℤ → C → D → Except ε (R × D)}
  {Own : C → Prop}

/-- **An act of a call that is not `mine`** is not noticed. -/
theorem Agrees.act_other (h : Agrees mine view s s')
    (hseparate : Separate program serve mine Own view)
    (hissues : Everyone (fun _ k p => p.Issues (fun c => Own c ↔ mine k = true)) s)
    {a : Act ι K T ε} (ha : concerns mine s a = false) :
    Agrees mine view (act program serve s a) s' := by
  -- a client at work on another call is idle in the second system
  have hother : ∀ {i : ι} {k : K} {p : Program C R T ε α}, s.running i = some (k, p) →
      (s.running i).any (fun call => mine call.1) = false →
      ¬ mine k = true ∧ s'.running i = none := by
    intro i k p hi hany
    rw [hi] at hany
    have hk : ¬ mine k = true := by
      rw [show mine k = false from hany]
      exact Bool.false_ne_true
    refine ⟨hk, ?_⟩
    rw [h.running, hi, Option.filter_some, if_neg hk]
  have hdata : ∀ {i : ι} {k : K} {c : C} {next : Except ε R → Program C R T ε α} {reply : R}
      {data : D}, s.running i = some (k, .issue c next) → ¬ mine k = true →
      serve s.now c s.data = .ok (reply, data) → view data = view s.data :=
    fun hi hk hserve => hseparate.other _ _ _ _ _ (fun hown => hk ((hissues _ _ _ hi).1.mp hown))
      hserve
  have hstep := act_stepped program serve s a
  generalize act program serve s a = t at hstep ⊢
  cases hstep with
  | idle => exact h
  | @start i k hidle =>
      have hk : ¬ mine k = true := by
        simp only [concerns, hidle, Option.isNone_none, Bool.true_and] at ha
        rw [ha]
        exact Bool.false_ne_true
      refine h.proceed_other hk ?_ _
      rw [h.running, hidle, Option.filter_none]
  | answered hi hserve =>
      obtain ⟨hk, hnone⟩ := hother hi ha
      exact (h.executed_other _ hk _ (hdata hi hk hserve)).proceed_other hk hnone _
  | handed e hi =>
      obtain ⟨hk, hnone⟩ := hother hi ha
      exact (h.handed_other _ hk).proceed_other hk hnone _
  | lost e hi hserve =>
      obtain ⟨hk, hnone⟩ := hother hi ha
      exact ((h.executed_other _ hk _ (hdata hi hk hserve)).handed_other _ hk).proceed_other hk
        hnone _
  | clock hi =>
      obtain ⟨hk, hnone⟩ := hother hi ha
      exact h.proceed_other hk hnone _
  | finish hi =>
      obtain ⟨hk, hnone⟩ := hother hi ha
      exact h.ended_other hk hnone _

/-- **An act of a call that is `mine`** is the same in both systems. -/
theorem Agrees.act_own (h : Agrees mine view s s')
    (hseparate : Separate program serve mine Own view)
    (hissues : Everyone (fun _ k p => p.Issues (fun c => Own c ↔ mine k = true)) s)
    {a : Act ι K T ε} (ha : concerns mine s a = true) :
    Agrees mine view (act program serve s a) (act program serve s' a) := by
  have hown : ∀ {i : ι}, (s.running i).any (fun call => mine call.1) = true →
      ∃ k p, s.running i = some (k, p) ∧ s'.running i = some (k, p) ∧ mine k = true := by
    intro i hany
    rcases hi : s.running i with _ | ⟨k, p⟩
    · rw [hi] at hany
      cases hany
    · rw [hi] at hany
      have hk : mine k = true := hany
      refine ⟨k, p, rfl, ?_, hk⟩
      rw [h.running, hi, Option.filter_some, if_pos hk]
  cases a with
  | idle => cases ha
  | start i k =>
      obtain ⟨hidle, hk⟩ := Bool.and_eq_true_iff.mp ha
      have hidle := Option.isNone_iff_eq_none.mp hidle
      have hidle' : s'.running i = none := by
        rw [h.running, hidle, Option.filter_none]
      simp only [act, hidle, hidle']
      exact h.proceed i hk _
  | command i delivery =>
      obtain ⟨k, p, hi, hi', hk⟩ := hown ha
      rcases p with result | ⟨c, next⟩ | next
      · simp only [act, hi, hi']
        exact h
      · -- the server makes the same of the command in both
        have hserved := hseparate.own s.now c s.data s'.data ((hissues _ _ _ hi).1.mpr hk) h.data
        rcases hserve : serve s.now c s.data with e | ⟨reply, data⟩ <;>
          rcases hserve' : serve s.now c s'.data with e' | ⟨reply', data'⟩ <;>
          rw [hserve, hserve'] at hserved
        · cases Except.error.inj hserved
          cases delivery <;> simp only [act, hi, hi', h.now, hserve, hserve'] <;>
            exact (h.handed i hk).proceed i hk _
        · cases hserved
        · cases hserved
        · obtain ⟨hreply, hdata⟩ := Prod.mk.inj (Except.ok.inj hserved)
          cases hreply
          have hexecuted := h.executed i hk c hdata
          cases delivery with
          | answered =>
              simp only [act, hi, hi', h.now, hserve, hserve']
              exact hexecuted.proceed i hk _
          | failed e =>
              simp only [act, hi, hi']
              exact (h.handed i hk).proceed i hk _
          | lost e =>
              simp only [act, hi, hi', h.now, hserve, hserve']
              exact (hexecuted.handed i hk).proceed i hk _
      · simp only [act, hi, hi']
        exact h
  | clock i reading =>
      obtain ⟨k, p, hi, hi', hk⟩ := hown ha
      rcases p with result | ⟨c, next⟩ | next
      · simp only [act, hi, hi']
        exact h
      · simp only [act, hi, hi']
        exact h
      · simp only [act, hi, hi']
        exact h.proceed i hk _
  | finish i =>
      obtain ⟨k, p, hi, hi', hk⟩ := hown ha
      rcases p with result | ⟨c, next⟩ | next
      · simp only [act, hi, hi']
        exact h.ended i hk _
      · simp only [act, hi, hi']
        exact h
      · simp only [act, hi, hi']
        exact h

/-- **Deleting the other calls changes nothing for those that are `mine`**, in
every run. -/
theorem run_separate (hseparate : Separate program serve mine Own view)
    (events : List (ℕ × Act ι K T ε)) :
    ∀ {s s' : Clients ι K C R D T ε α},
      Everyone (fun _ k p => p.Issues (fun c => Own c ↔ mine k = true)) s → Agrees mine view s s' →
      Agrees mine view (run program serve events s)
        (run program serve (ownEvents program serve mine events s) s') := by
  induction events with
  | nil => exact fun _ h => h
  | cons event rest ih =>
      intro s s' hissues h
      have htime : Agrees mine view ({ s with now := s.now + event.1 } : Clients ι K C R D T ε α)
          { s' with now := s'.now + event.1 } := by
        refine ⟨?_, h.data, h.running, h.trace, h.results, h.errors⟩
        show s'.now + event.1 = s.now + event.1
        rw [h.now]
      have hnext : Everyone (fun _ k p => p.Issues (fun c => Own c ↔ mine k = true))
          (step program serve s event) :=
        issues_step hseparate.calls (act_stepped program serve { s with now := s.now + event.1 } _)
          hissues
      refine ih hnext ?_
      have hsame : concerns mine ({ s with now := s.now + event.1 } : Clients ι K C R D T ε α)
          event.2 = concerns mine s event.2 := by
        cases event.2 <;> rfl
      by_cases hconcerns : concerns mine s event.2 = true
      · rw [if_pos hconcerns]
        exact htime.act_own hseparate hissues (hsame.trans hconcerns)
      · rw [if_neg hconcerns]
        exact htime.act_other hseparate hissues (hsame.trans (eq_false_of_ne_true hconcerns))

end Act

end Agrees

end FinCore.Concurrent

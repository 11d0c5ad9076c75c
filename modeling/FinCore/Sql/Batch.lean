/-
  FinCore.Sql.Batch
  ─────────────────
  Several queries in one transaction.

  `execAll` is what the server makes of the queries when nothing interferes.  A
  transaction that returns has done exactly that (`transaction_returned`); with
  no fault ahead it returns if and only if the server takes every query, and
  otherwise throws the server's error and leaves the data alone
  (`transaction_sent`).
-/
import FinCore.Sql.Session

namespace FinCore.Sql

open FinCore.Cxx

variable {D S ε α : Type}

/-- The server executes queries one after the other; the rows affected add
up. -/
def execAll (server : Server D S ε) : List S → D → Except (Str × Str) (D × ℕ)
  | [], data => .ok (data, 0)
  | q :: rest, data =>
      match server.exec q data with
      | .error e => .error e
      | .ok (data', n) =>
          match execAll server rest data' with
          | .error e => .error e
          | .ok (data'', m) => .ok (data'', n + m)

theorem execAll_cons_ok {server : Server D S ε} {q : S} {rest : List S} {data data'' : D} {m : ℕ}
    (h : execAll server (q :: rest) data = .ok (data'', m)) :
    ∃ data' n k, server.exec q data = .ok (data', n) ∧ execAll server rest data' = .ok (data'', k)
      ∧ m = n + k := by
  rw [execAll] at h
  rcases hq : server.exec q data with e | ⟨data', n⟩
  · simp [hq] at h
  · rcases hrest : execAll server rest data' with e | ⟨d, k⟩
    · simp [hq, hrest] at h
    · simp only [hq, hrest, Except.ok.injEq, Prod.mk.injEq] at h
      exact ⟨data', n, k, rfl, h.1 ▸ hrest, h.2.symm⟩

/-- What every query of a kind stays within, a sequence of them does. -/
theorem execAll_within {server : Server D S ε} {R : D → D → Prop} [IsPreorder D R]
    {queries : List S}
    (h : ∀ q ∈ queries, ∀ data data' n, server.exec q data = .ok (data', n) → R data data') :
    ∀ {data data' : D} {n : ℕ}, execAll server queries data = .ok (data', n) → R data data' := by
  induction queries with
  | nil =>
      intro data data' n hrun
      rw [execAll, Except.ok.injEq, Prod.mk.injEq] at hrun
      rw [hrun.1]
      exact refl_of R data'
  | cons q rest ih =>
      intro data data' n hrun
      obtain ⟨d, k, m, hq, hrest, _⟩ := execAll_cons_ok hrun
      exact trans_of R (h q List.mem_cons_self data d k hq)
        (ih (fun q' hq' => h q' (List.mem_cons_of_mem _ hq')) hrest)

namespace Session

open Action

/-- Issue the queries, adding up the rows affected. -/
def issueAll (server : Server D S ε) : List S → ℕ → Action (Session D S) ε ℕ
  | [], total => pure total
  | q :: rest, total => do
      let affected ← issue server (.query q)
      issueAll server rest (total + affected)

/-! ## §1. A sequence that returns. -/

/-- When every query of a block is accepted, the block's data is what the server
makes of them. -/
theorem issueAll_ok {server : Server D S ε} (queries : List S) :
    ∀ {total m : ℕ} {s t : Session D S} {working : D},
      issueAll server queries total s = (.ok m, t) → s.status = .inProgress working →
      ∃ data n, execAll server queries working = .ok (data, n) ∧ m = total + n
        ∧ t.status = .inProgress data := by
  induction queries with
  | nil =>
      intro total m s t working h hs
      rw [issueAll, pure_run, Prod.mk.injEq, Except.ok.injEq] at h
      obtain ⟨rfl, rfl⟩ := h
      exact ⟨working, 0, rfl, rfl, hs⟩
  | cons q rest ih =>
      intro total m s t working h hs
      rw [issueAll] at h
      obtain ⟨affected, s₁, hquery, hrest⟩ := bind_eq_ok h
      obtain ⟨data₁, hexec, rfl⟩ := query_ok hquery hs
      obtain ⟨data, n, hall, hm, ht⟩ := ih hrest rfl
      refine ⟨data, affected + n, ?_, by omega, ht⟩
      rw [execAll, hexec]
      simp only [hall]

/-- **A transaction on an idle session that returns has committed what its body
left in the block**; one that throws has committed nothing, or the same and the
answer was lost. -/
theorem transaction_returned (server : Server D S ε) (body : Action (Session D S) ε α)
    {s : Session D S} (hs : s.status = .idle) (hbody : Blocked s.committed body)
    (hgrows : Grows body) :
    (∃ e t, transaction server body s = (.error e, t) ∧ Unwound s t)
    ∨ (∃ a s₁ s₂ t, s₁.status = .inProgress s.committed ∧ body s₁ = (.ok a, s₂)
        ∧ transaction server body s = (.ok a, t)
        ∧ ∀ data, s₂.status = .inProgress data → t.committed = data ∧ t.status = .idle)
    ∨ ∃ e a s₁ s₂ t, s₁.status = .inProgress s.committed ∧ body s₁ = (.ok a, s₂)
        ∧ transaction server body s = (.error e, t) ∧ Unanswered s₂ t := by
  have hvisible := visible_idle hs
  rcases transaction_cases server body hbody hgrows with
    hthrown | ⟨a, s₁, s₂, t, n, _, rfl, hrun, hcommit, htransaction⟩
    | ⟨e, a, s₁, s₂, t, rfl, hrun, hunanswered, htransaction⟩
  · exact Or.inl hthrown
  · refine Or.inr (Or.inl ⟨a, _, s₂, t, hvisible ▸ rfl, hrun, htransaction, fun data hdata => ?_⟩)
    obtain ⟨hcommitted, hidle, _⟩ := commit_ok hcommit hdata
    exact ⟨hcommitted, hidle⟩
  · exact Or.inr (Or.inr ⟨e, a, _, s₂, t, hvisible ▸ rfl, hrun, htransaction, hunanswered⟩)

/-- **Outside a block a query commits by itself**: one that returns has been
executed on the committed data; one that throws has changed nothing, or has been
executed and the answer was lost. -/
theorem query_autocommit (server : Server D S ε) (q : S) {s : Session D S}
    (hs : s.status = .idle) :
    (∃ n t, issue server (.query q) s = (.ok n, t)
        ∧ server.exec q s.committed = .ok (t.committed, n) ∧ t.status = .idle)
    ∨ (∃ e t, issue server (.query q) s = (.error e, t) ∧ t.committed = s.committed
        ∧ t.status = .idle)
    ∨ ∃ e n t, issue server (.query q) s = (.error e, t)
        ∧ server.exec q s.committed = .ok (t.committed, n) ∧ t.status = .idle
        ∧ t.connected = false ∧ ¬ Answered t := by
  have hidle : refuse (.query q : Statement S) s.status = .idle := by
    rw [hs]
    rfl
  rcases issue_cases server (.query q) s with ⟨_, e, hrun⟩ | ⟨_, n, s', hx, hrun⟩
    | ⟨_, e, e', s', hx, hrun⟩ | ⟨_, e, hrun⟩ | ⟨_, e, hrun⟩ | ⟨_, e, hrun⟩
    | ⟨_, e, m, hm, hrun⟩
  · exact Or.inr (Or.inl ⟨e, s, hrun, rfl, hs⟩)
  · rcases hq : server.exec q s.committed with e | ⟨data, m⟩
    · simp [execute, hs, hq] at hx
    · simp only [execute, hs, hq, Prod.mk.injEq, Except.ok.injEq] at hx
      obtain ⟨rfl, rfl⟩ := hx
      exact Or.inl ⟨m, _, hrun, rfl, rfl⟩
  · rcases hq : server.exec q s.committed with e₁ | ⟨data, m⟩
    · simp only [execute, hs, hq, Prod.mk.injEq] at hx
      rw [← hx.2] at hrun
      exact Or.inr (Or.inl ⟨e', _, hrun, rfl, hs⟩)
    · simp [execute, hs, hq] at hx
  · exact Or.inr (Or.inl ⟨e, _, hrun, rfl, hs⟩)
  · exact Or.inr (Or.inl ⟨e, _, hrun, rfl, hidle⟩)
  · exact Or.inr (Or.inl ⟨e, _, hrun, rfl, rfl⟩)
  · rcases hq : server.exec q s.committed with e₁ | ⟨data, k⟩
    · simp only [execute, hs, hq] at hrun
      exact Or.inr (Or.inl ⟨e, _, hrun, rfl, rfl⟩)
    · simp only [execute, hs, hq] at hrun
      refine Or.inr (Or.inr ⟨e, k, _, hrun, rfl, rfl, rfl, ?_⟩)
      exact not_answered_of_fate rfl rfl hm

/-- No ROLLBACK of the session has failed. -/
def NoFailedRollback (s : Session D S) : Prop := (.rollback, false) ∉ s.log

instance [DecidableEq S] (s : Session D S) : Decidable (NoFailedRollback s) :=
  inferInstanceAs (Decidable (_ ∉ s.log))

theorem NoFailedRollback.of_grows {s t : Session D S} (hgrows : LogGrows s t)
    (h : NoFailedRollback t) : NoFailedRollback s :=
  fun hmem => h (hgrows.subset hmem)

/-- What has thrown leaves the session idle, unless its ROLLBACK failed. -/
theorem Unwound.idle {s t : Session D S} (h : Unwound s t) (hs : s.status = .idle)
    (hrollbacks : NoFailedRollback t) : t.status = .idle := by
  refine (h.ended hs).resolve_right ?_
  rintro ⟨between, hlog⟩
  refine hrollbacks ?_
  rw [hlog]
  exact List.mem_append_right _ (List.mem_singleton.mpr rfl)

/-! ## §2. No faults. -/

/-- The connection is open, and every statement ahead reaches the server and is
answered. -/
structure Faultless (s : Session D S) : Prop where
  connected : s.connected = true
  sent : ∀ n, s.log.length ≤ n → s.fate n = .sent

theorem Faultless.noted {s : Session D S} (h : Faultless s) (committed : D) (status : TxStatus D)
    (statement : Statement S) (accepted : Bool) :
    Faultless (({ s with committed := committed, status := status } : Session D S).note statement
      accepted) := by
  refine ⟨h.connected, fun n hn => h.sent n ?_⟩
  have hlength : (s.log ++ [(statement, accepted)]).length ≤ n := hn
  rw [List.length_append, List.length_singleton] at hlength
  omega

/-- A statement that reaches the server is as the server executes it. -/
theorem issue_reached (server : Server D S ε) (statement : Statement S) {s : Session D S}
    (hconnected : s.connected = true) (hsent : s.fate s.log.length = .sent) :
    issue server statement s =
      match execute server statement s with
      | (.ok n, s') => (.ok n, s'.note statement true)
      | (.error e, s') => (.error (server.error e.1 e.2), s'.note statement false) := by
  rcases hexecute : execute server statement s with ⟨e | n, s'⟩ <;>
    simp [issue, hconnected, hsent, hexecute]

theorem issue_sent (server : Server D S ε) (statement : Statement S) {s : Session D S}
    (h : Faultless s) :
    issue server statement s =
      match execute server statement s with
      | (.ok n, s') => (.ok n, s'.note statement true)
      | (.error e, s') => (.error (server.error e.1 e.2), s'.note statement false) :=
  issue_reached server statement h.connected (h.sent _ le_rfl)

/-- The next `n` statements reach the server. -/
structure Reaches (s : Session D S) (n : ℕ) : Prop where
  connected : s.connected = true
  sent : ∀ i, s.log.length ≤ i → i < s.log.length + n → s.fate i = .sent

theorem Reaches.noted {s : Session D S} {n : ℕ} (h : Reaches s (n + 1)) (committed : D)
    (status : TxStatus D) (statement : Statement S) (accepted : Bool) :
    Reaches (({ s with committed := committed, status := status } : Session D S).note statement
      accepted) n := by
  have hlength : (s.log ++ [(statement, accepted)]).length = s.log.length + 1 :=
    List.length_append
  refine ⟨h.connected, fun i hlow hhigh => h.sent i ?_ ?_⟩
  · have hlow' : (s.log ++ [(statement, accepted)]).length ≤ i := hlow
    omega
  · have hhigh' : i < (s.log ++ [(statement, accepted)]).length + n := hhigh
    omega

theorem Reaches.issue {s : Session D S} {n : ℕ} (h : Reaches s (n + 1)) (server : Server D S ε)
    (statement : Statement S) :
    Session.issue server statement s =
      match execute server statement s with
      | (.ok n, s') => (.ok n, s'.note statement true)
      | (.error e, s') => (.error (server.error e.1 e.2), s'.note statement false) :=
  issue_reached server statement h.connected (h.sent _ le_rfl (by omega))

/-- **A transaction whose statements reach the server returns, if its body
does**; only an aborted block would refuse its BEGIN. -/
theorem Reaches.transaction {s : Session D S} {n : ℕ} (h : Reaches s (n + 2))
    (hs : s.status ≠ .failed) (server : Server D S ε) {body : Action (Session D S) ε α}
    (hbody : ∀ {t : Session D S} {working : D}, Reaches t (n + 1) →
      t.status = .inProgress working →
      ∃ a u after, body t = (.ok a, u) ∧ Reaches u 1 ∧ u.status = .inProgress after) :
    ∃ a t, Session.transaction server body s = (.ok a, t) := by
  have hbegin := h.issue server .begin
  obtain ⟨t, hrun, ht, working, hworking⟩ : ∃ t, Session.issue server .begin s = (.ok 0, t)
      ∧ Reaches t (n + 1) ∧ ∃ working, t.status = .inProgress working := by
    cases hstatus : s.status with
    | idle =>
        simp only [execute, hstatus] at hbegin
        exact ⟨_, hbegin, h.noted _ _ _ _, _, rfl⟩
    | inProgress working =>
        simp only [execute, hstatus] at hbegin
        exact ⟨_, hbegin, h.noted _ _ _ _, working, hstatus⟩
    | failed => exact absurd hstatus hs
  obtain ⟨a, u, after, hrun', hu, hafter⟩ := hbody ht hworking
  have hcommit := hu.issue server .commit
  simp only [execute, hafter] at hcommit
  unfold Session.transaction
  rw [bind_ok hrun]
  exact ⟨a, _, onThrow_ok ((bind_ok hrun').trans (bind_ok hcommit))⟩

/-- **A session without faults stays without faults.** -/
theorem Faultless.issue (server : Server D S ε) (statement : Statement S) :
    Within (Preserves Faultless) (Session.issue server statement) := by
  intro s hs
  rw [issue_sent server statement hs]
  obtain ⟨committed, status, hframe⟩ := execute_frame server statement s
  rcases hx : execute server statement s with ⟨r, s'⟩
  rw [hx] at hframe
  obtain rfl : s' = { s with committed := committed, status := status } := hframe
  cases r with
  | ok n => exact hs.noted committed status statement true
  | error e => exact hs.noted committed status statement false

/-- The state of a block in which nothing goes wrong but what the server
refuses. -/
structure Steady (s : Session D S) (data : D) (status : TxStatus D) : Prop where
  faultless : Faultless s
  committed : s.committed = data
  status : s.status = status

/-- The queries of a block without faults. -/
theorem issueAll_sent (server : Server D S ε) (queries : List S) :
    ∀ (total : ℕ) {s : Session D S} {committed working : D},
      Steady s committed (.inProgress working) →
      match execAll server queries working with
      | .ok (data, n) => ∃ t, issueAll server queries total s = (.ok (total + n), t)
          ∧ Steady t committed (.inProgress data)
      | .error e => ∃ t, issueAll server queries total s = (.error (server.error e.1 e.2), t)
          ∧ Steady t committed .failed := by
  induction queries with
  | nil => exact fun total _ _ _ hs => ⟨_, rfl, hs⟩
  | cons q rest ih =>
      intro total s committed working hs
      have hissue := issue_sent server (.query q) hs.faultless
      rw [execAll, issueAll]
      rcases hq : server.exec q working with e | ⟨data₁, n⟩
      · -- the server refuses the query, and the block fails
        simp only [execute, hs.status, hq] at hissue
        rw [bind_error hissue]
        refine ⟨_, rfl, hs.faultless.noted _ _ _ _,
          hs.committed, rfl⟩
      · simp only [execute, hs.status, hq] at hissue
        rw [bind_ok hissue]
        have hnext : Steady (({ s with status := .inProgress data₁ } : Session D S).note
            (.query q) true) committed (.inProgress data₁) :=
          ⟨hs.faultless.noted _ _ _ _, hs.committed, rfl⟩
        have hrest := ih (total + n) hnext
        rcases hall : execAll server rest data₁ with e | ⟨data, m⟩
        · simp only [hall] at hrest ⊢
          exact hrest
        · simp only [hall, Nat.add_assoc] at hrest ⊢
          exact hrest

/-- **A transaction of queries without faults** returns exactly if the server
takes every query; otherwise it throws the server's error and has changed
nothing. -/
theorem transaction_sent (server : Server D S ε) (queries : List S) {s : Session D S}
    (hfaultless : Faultless s) (hs : s.status = .idle) :
    match execAll server queries s.committed with
    | .ok (data, n) => ∃ t, transaction server (issueAll server queries 0) s = (.ok n, t)
        ∧ Steady t data .idle
    | .error e => ∃ t, transaction server (issueAll server queries 0) s
          = (.error (server.error e.1 e.2), t)
        ∧ Steady t s.committed .idle := by
  have hbegin := issue_sent server .begin hfaultless
  simp only [execute, hs] at hbegin
  have hblock : Steady
      (({ s with status := .inProgress s.committed } : Session D S).note .begin true) s.committed (.inProgress s.committed) :=
    ⟨hfaultless.noted _ _ _ _, rfl, rfl⟩
  have hbody := issueAll_sent server queries 0 hblock
  unfold transaction
  rw [bind_ok hbegin]
  rcases hall : execAll server queries s.committed with e | ⟨data, n⟩
  · rw [hall] at hbody
    obtain ⟨t, hrun, ht⟩ := hbody
    -- the ROLLBACK ends the failed block
    have hrollback := issue_sent server .rollback ht.faultless
    simp only [execute] at hrollback
    rw [onThrow_error (bind_error hrun), bind_ok hrollback]
    exact ⟨_, rfl, ht.faultless.noted _ _ _ _, ht.committed,
      rfl⟩
  · rw [hall] at hbody
    obtain ⟨t, hrun, ht⟩ := hbody
    rw [Nat.zero_add] at hrun
    have hcommit := issue_sent server .commit ht.faultless
    simp only [execute, ht.status] at hcommit
    refine ⟨_, onThrow_ok ((bind_ok hrun).trans (bind_ok hcommit)), ?_⟩
    exact ⟨ht.faultless.noted _ _ _ _, rfl, rfl⟩

end Session

end FinCore.Sql

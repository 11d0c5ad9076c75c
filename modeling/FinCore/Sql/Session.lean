/-
  FinCore.Sql.Session
  ───────────────────
  A client's session with an SQL server: autocommit, transaction blocks, and
  statements that fail.

  A statement that reaches the server may be executed or refused; it may also
  never get there, or the connection breaks before or after the server has
  executed it.  What becomes of the n-th statement is up to the session's
  `fate`.  A refused statement aborts the transaction block it is in; a broken
  connection ends the block.  The rules of §3 and §4 say what a block can do to
  the committed data: nothing before its COMMIT is executed.
-/
import FinCore.Cxx.Action
import FinCore.Cxx.Text

namespace FinCore.Sql

open FinCore.Cxx

/-! ## §1. Sessions. -/

/-- What becomes of a statement. -/
inductive Fate where
  /-- It reaches the server, which executes it. -/
  | sent
  /-- It does not reach the server. -/
  | unsent (message : Str)
  /-- The server refuses it. -/
  | refused (message sqlState : Str)
  /-- The connection breaks, and the server does not execute it. -/
  | lost (message : Str)
  /-- The server executes it, and the connection breaks before the answer. -/
  | unanswered (message : Str)

/-- Every statement that is executed is answered. -/
def AllAnswered (fate : ℕ → Fate) : Prop := ∀ n message, fate n ≠ .unanswered message

theorem allAnswered_sent : AllAnswered (fun _ => .sent) := by
  intro n message h
  cases h

/-- The state of the session's transaction block over data `D`. -/
inductive TxStatus (D : Type) where
  | idle
  | inProgress (working : D)
  | failed

inductive Statement (S : Type) where
  | begin
  | commit
  | rollback
  | query (q : S)
  deriving DecidableEq

structure Session (D S : Type) where
  committed : D
  status : TxStatus D
  connected : Bool
  /-- The statements issued, and whether each was accepted. -/
  log : List (Statement S × Bool)
  fate : ℕ → Fate

/-- What a server does with a query: new data and the rows affected, or an
error message with its SQLSTATE; and how a client reports an error, and a
statement on a closed connection. -/
structure Server (D S ε : Type) where
  exec : S → D → Except (Str × Str) (D × ℕ)
  error : Str → Str → ε
  closed : Statement S → ε

namespace Session

open Action

variable {D S ε α : Type}

def note (s : Session D S) (statement : Statement S) (accepted : Bool) : Session D S :=
  { s with log := s.log ++ [(statement, accepted)] }

/-- Every statement in an aborted block but its end. -/
def abortedError : Str × Str :=
  ("current transaction is aborted, commands ignored until end of transaction block".toList,
    "25P02".toList)

/-- The server executes a statement. -/
def execute (server : Server D S ε) (statement : Statement S) (s : Session D S) :
    Except (Str × Str) ℕ × Session D S :=
  match statement, s.status with
  | .begin, .idle => (.ok 0, { s with status := .inProgress s.committed })
  -- a second BEGIN only warns
  | .begin, .inProgress _ => (.ok 0, s)
  | .commit, .inProgress working => (.ok 0, { s with committed := working, status := .idle })
  -- COMMIT of an aborted block rolls it back
  | .commit, _ => (.ok 0, { s with status := .idle })
  | .rollback, _ => (.ok 0, { s with status := .idle })
  -- outside a block a query commits by itself
  | .query q, .idle =>
      match server.exec q s.committed with
      | .ok (data, n) => (.ok n, { s with committed := data })
      | .error e => (.error e, s)
  | .query q, .inProgress working =>
      match server.exec q working with
      | .ok (data, n) => (.ok n, { s with status := .inProgress data })
      | .error e => (.error e, { s with status := .failed })
  -- an aborted block executes nothing but its end
  | _, .failed => (.error abortedError, s)

/-- The block after the server has refused a statement. -/
def refuse (statement : Statement S) (status : TxStatus D) : TxStatus D :=
  match statement, status with
  | .commit, _ => .idle
  | .rollback, status => status
  | _, .inProgress _ => .failed
  | _, status => status

/-- The state of a connection that broke. -/
def close (s : Session D S) : Session D S := { s with status := .idle, connected := false }

/-- Issue a statement, unless the connection is closed. -/
def issue (server : Server D S ε) (statement : Statement S) : Action (Session D S) ε ℕ := fun s =>
  if s.connected = false then
    (.error (server.closed statement), s)
  else
    match s.fate s.log.length with
    | .sent =>
        match execute server statement s with
        | (.ok n, s') => (.ok n, s'.note statement true)
        | (.error e, s') => (.error (server.error e.1 e.2), s'.note statement false)
    -- it never left the client: the block stays as it is
    | .unsent message => (.error (server.error message []), s.note statement false)
    | .refused message sqlState =>
        (.error (server.error message sqlState),
          { s with status := refuse statement s.status }.note statement false)
    -- the connection broke, and the server rolls back
    | .lost message => (.error (server.error message []), s.close.note statement false)
    -- what the statement has committed stays
    | .unanswered message =>
        (.error (server.error message []),
          (execute server statement s).2.close.note statement false)

/-- A query that only reads the data, with what becomes of it. -/
def read (server : Server D S ε) (closed : ε) (fate : Fate) (query : D → α) :
    Action (Session D S) ε α := fun s =>
  if s.connected = false then (.error closed, s)
  else
    match fate with
    | .sent =>
        match s.status with
        | .idle => (.ok (query s.committed), s)
        | .inProgress working => (.ok (query working), s)
        | .failed => (.error (server.error abortedError.1 abortedError.2), s)
    | .unsent message => (.error (server.error message []), s)
    | .refused message sqlState =>
        (.error (server.error message sqlState),
          { s with status := match s.status with | .inProgress _ => .failed | status => status })
    | .lost message | .unanswered message => (.error (server.error message []), s.close)

/-- The data a query of the session works on. -/
def visible (s : Session D S) : D :=
  match s.status with
  | .inProgress working => working
  | _ => s.committed

theorem visible_idle {s : Session D S} (hs : s.status = .idle) : s.visible = s.committed := by
  unfold visible
  rw [hs]

/-! ## §2. What a statement can do. -/

/-- Everything that can become of a statement: the connection is closed; it is
executed and accepted; it is executed and fails; it is not sent; it is refused;
the connection breaks before it is executed, or after. -/
theorem issue_cases (server : Server D S ε) (statement : Statement S) (s : Session D S) :
    (s.connected = false ∧ ∃ e, issue server statement s = (.error e, s))
    ∨ (s.connected = true ∧ ∃ n s', execute server statement s = (.ok n, s')
        ∧ issue server statement s = (.ok n, s'.note statement true))
    ∨ (s.connected = true ∧ ∃ e e' s', execute server statement s = (.error e, s')
        ∧ issue server statement s = (.error e', s'.note statement false))
    ∨ (s.connected = true ∧ ∃ e, issue server statement s = (.error e, s.note statement false))
    ∨ (s.connected = true ∧ ∃ e, issue server statement s
        = (.error e, { s with status := refuse statement s.status }.note statement false))
    ∨ (s.connected = true ∧ ∃ e, issue server statement s
        = (.error e, s.close.note statement false))
    ∨ (s.connected = true ∧ ∃ e m, s.fate s.log.length = .unanswered m
        ∧ issue server statement s
          = (.error e, (execute server statement s).2.close.note statement false)) := by
  unfold issue
  cases hc : s.connected with
  | false =>
      rw [if_pos rfl]
      exact Or.inl ⟨rfl, _, rfl⟩
  | true =>
      rw [if_neg (by decide)]
      right
      -- one case for each fate of the statement
      cases hfate : s.fate s.log.length with
      | sent =>
          rcases hx : execute server statement s with ⟨r, s'⟩
          cases r with
          | ok n => exact Or.inl ⟨rfl, n, s', rfl, rfl⟩
          | error e => exact Or.inr (Or.inl ⟨rfl, e, _, s', rfl, rfl⟩)
      | unsent m => exact Or.inr (Or.inr (Or.inl ⟨rfl, _, rfl⟩))
      | refused m c => exact Or.inr (Or.inr (Or.inr (Or.inl ⟨rfl, _, rfl⟩)))
      | lost m => exact Or.inr (Or.inr (Or.inr (Or.inr (Or.inl ⟨rfl, _, rfl⟩))))
      | unanswered m => exact Or.inr (Or.inr (Or.inr (Or.inr (Or.inr ⟨rfl, _, m, rfl, rfl⟩))))

/-- A statement that is executed changes the data and the block. -/
theorem execute_frame (server : Server D S ε) (statement : Statement S) (s : Session D S) :
    ∃ committed status, (execute server statement s).2
      = { s with committed := committed, status := status } := by
  cases statement with
  | begin => cases hs : s.status <;> exact ⟨_, _, by simp only [execute, hs]; rfl⟩
  | commit => cases hs : s.status <;> exact ⟨_, _, by simp only [execute, hs]; rfl⟩
  | rollback => exact ⟨_, _, rfl⟩
  | query q =>
      cases hs : s.status with
      | failed => exact ⟨_, _, by simp only [execute, hs]; rfl⟩
      | idle =>
          rcases hq : server.exec q s.committed with e | ⟨data, n⟩
          · exact ⟨_, _, by simp only [execute, hs, hq]; rfl⟩
          · exact ⟨_, _, by simp only [execute, hs, hq]; rfl⟩
      | inProgress working =>
          rcases hq : server.exec q working with e | ⟨data, n⟩
          · exact ⟨_, _, by simp only [execute, hs, hq]; rfl⟩
          · exact ⟨_, _, by simp only [execute, hs, hq]; rfl⟩

theorem execute_log (server : Server D S ε) (statement : Statement S) (s : Session D S) :
    (execute server statement s).2.log = s.log := by
  obtain ⟨committed, status, hframe⟩ := execute_frame server statement s
  rw [hframe]

theorem execute_fate (server : Server D S ε) (statement : Statement S) (s : Session D S) :
    (execute server statement s).2.fate = s.fate := by
  obtain ⟨committed, status, hframe⟩ := execute_frame server statement s
  rw [hframe]

/-- A query that fails in a block aborts it, and nothing else changes. -/
theorem execute_query_error {server : Server D S ε} {q : S} {s s' : Session D S} {e : Str × Str}
    (h : execute server (.query q) s = (.error e, s')) (hs : s.status ≠ .idle) :
    s' = { s with status := .failed } := by
  cases hstatus : s.status with
  | idle => exact absurd hstatus hs
  | failed =>
      simp only [execute, hstatus, Prod.mk.injEq] at h
      rw [← h.2, ← hstatus]
  | inProgress working =>
      simp only [execute, hstatus] at h
      rcases hq : server.exec q working with e' | ⟨data, n⟩
      · simp only [hq, Prod.mk.injEq] at h
        exact h.2.symm
      · simp [hq] at h

/-- A query that succeeds in a block changes the block's data. -/
theorem execute_query_ok {server : Server D S ε} {q : S} {s s' : Session D S} {n : ℕ}
    (h : execute server (.query q) s = (.ok n, s')) (hs : s.status ≠ .idle) :
    ∃ working data, s.status = .inProgress working ∧ server.exec q working = .ok (data, n)
      ∧ s' = { s with status := .inProgress data } := by
  cases hstatus : s.status with
  | idle => exact absurd hstatus hs
  | failed => simp [execute, hstatus] at h
  | inProgress working =>
      simp only [execute, hstatus] at h
      rcases hq : server.exec q working with e' | ⟨data, m⟩
      · simp [hq] at h
      · simp only [hq, Prod.mk.injEq, Except.ok.injEq] at h
        obtain ⟨rfl, rfl⟩ := h
        exact ⟨working, data, rfl, hq, rfl⟩

theorem execute_commit (server : Server D S ε) (s : Session D S) :
    ∃ s', execute server .commit s = (.ok 0, s') ∧ s'.status = .idle
      ∧ (∀ working, s.status = .inProgress working → s'.committed = working)
      ∧ s'.connected = s.connected ∧ s'.log = s.log ∧ s'.fate = s.fate := by
  cases hstatus : s.status with
  | idle =>
      exact ⟨{ s with status := .idle }, by simp [execute, hstatus], rfl, nofun, rfl, rfl, rfl⟩
  | failed =>
      exact ⟨{ s with status := .idle }, by simp [execute, hstatus], rfl, nofun, rfl, rfl, rfl⟩
  | inProgress working =>
      refine ⟨{ s with committed := working, status := .idle }, by simp [execute, hstatus], rfl,
        ?_, rfl, rfl, rfl⟩
      intro w hw
      injection hw

/-- In a block a query commits nothing. -/
theorem execute_query_committed (server : Server D S ε) (q : S) {s : Session D S}
    (hs : s.status ≠ .idle) : (execute server (.query q) s).2.committed = s.committed := by
  rcases hx : execute server (.query q) s with ⟨e | n, s'⟩
  · rw [execute_query_error hx hs]
  · obtain ⟨_, _, _, _, rfl⟩ := execute_query_ok hx hs
    rfl

/-- An accepted statement was executed. -/
theorem issue_ok {server : Server D S ε} {statement : Statement S} {s t : Session D S} {n : ℕ}
    (h : issue server statement s = (.ok n, t)) :
    s.connected = true ∧ ∃ s', execute server statement s = (.ok n, s')
      ∧ t = s'.note statement true := by
  rcases issue_cases server statement s with ⟨_, e, hrun⟩ | ⟨hc, m, s', hx, hrun⟩
    | ⟨_, e, e', s', hx, hrun⟩ | ⟨_, e, hrun⟩ | ⟨_, e, hrun⟩ | ⟨_, e, hrun⟩
    | ⟨_, e, m, _, hrun⟩ <;>
    rw [hrun, Prod.mk.injEq] at h <;> obtain ⟨hr, rfl⟩ := h
  · cases hr
  · injection hr with hr
    rw [hr] at hx
    exact ⟨hc, s', hx, rfl⟩
  · cases hr
  · cases hr
  · cases hr
  · cases hr
  · cases hr

/-- An accepted query in a block changed the block's data and nothing else. -/
theorem query_ok {server : Server D S ε} {q : S} {s t : Session D S} {n : ℕ} {working : D}
    (h : issue server (.query q) s = (.ok n, t)) (hs : s.status = .inProgress working) :
    ∃ data, server.exec q working = .ok (data, n)
      ∧ t = ({ s with status := .inProgress data }.note (.query q) true) := by
  obtain ⟨_, s', hx, rfl⟩ := issue_ok h
  obtain ⟨w, data, hw, hexec, rfl⟩ := execute_query_ok hx (by rw [hs]; exact nofun)
  rw [hs] at hw
  injection hw with hw
  subst hw
  exact ⟨data, hexec, rfl⟩

/-- An accepted COMMIT applied the block's data. -/
theorem commit_ok {server : Server D S ε} {s t : Session D S} {n : ℕ} {working : D}
    (h : issue server .commit s = (.ok n, t)) (hs : s.status = .inProgress working) :
    t.committed = working ∧ t.status = .idle ∧ t.log = s.log ++ [(.commit, true)] := by
  obtain ⟨_, s', hx, rfl⟩ := issue_ok h
  obtain ⟨s'', hx', hidle, hworking, _, hlog, _⟩ := execute_commit server s
  rw [hx', Prod.mk.injEq] at hx
  obtain ⟨_, rfl⟩ := hx
  exact ⟨hworking working hs, hidle, by rw [note, hlog]⟩

/-! ## §3. Inside a block. -/

/-- The committed data is `data`, and there is a block while the connection is
up. -/
structure InBlock (data : D) (s : Session D S) : Prop where
  committed : s.committed = data
  block : s.connected = true → s.status ≠ .idle
  closed : s.connected = false → s.status = .idle

/-- A query inside a block commits nothing, whatever becomes of it. -/
theorem query_inBlock (server : Server D S ε) (q : S) {data : D} {s : Session D S}
    (h : InBlock data s) : InBlock data (issue server (.query q) s).2 := by
  -- while connected, only an idle status could leave the block
  have hopen : ∀ {t : Session D S}, s.connected = true → t.committed = s.committed →
      t.connected = s.connected → t.status ≠ .idle → InBlock data t := by
    intro t hc hdata hconn hstatus
    refine ⟨hdata.trans h.committed, fun _ => hstatus, fun hf => ?_⟩
    rw [hconn, hc] at hf
    cases hf
  rcases issue_cases server (.query q) s with ⟨_, e, hrun⟩ | ⟨hc, n, s', hx, hrun⟩
    | ⟨hc, e, e', s', hx, hrun⟩ | ⟨hc, e, hrun⟩ | ⟨hc, e, hrun⟩ | ⟨_, e, hrun⟩
    | ⟨hc, e, m, _, hrun⟩ <;> rw [hrun]
  · exact h
  · obtain ⟨_, d, _, _, rfl⟩ := execute_query_ok hx (h.block hc)
    exact hopen hc rfl rfl nofun
  · obtain rfl := execute_query_error hx (h.block hc)
    exact hopen hc rfl rfl nofun
  · exact hopen hc rfl rfl (h.block hc)
  · refine hopen hc rfl rfl ?_
    show refuse (.query q) s.status ≠ .idle
    have hblock := h.block hc
    cases hs : s.status with
    | idle => exact absurd hs hblock
    | inProgress w => exact nofun
    | failed => exact nofun
  · exact ⟨h.committed, nofun, fun _ => rfl⟩
  · exact ⟨(execute_query_committed server q (h.block hc)).trans h.committed, nofun, fun _ => rfl⟩

/-- A statement is noted once, unless the connection is closed. -/
theorem issue_noted (server : Server D S ε) (statement : Statement S) (s : Session D S) :
    (issue server statement s).2.log = s.log
    ∨ ∃ accepted, (issue server statement s).2.log = s.log ++ [(statement, accepted)] := by
  -- executing writes no log, only the note behind it does
  have hexec := execute_log server statement s
  have hnote : ∀ {t : Session D S} (accepted : Bool), t.log = s.log →
      (t.note statement accepted).log = s.log ++ [(statement, accepted)] := by
    intro t accepted ht
    show t.log ++ _ = _
    rw [ht]
  rcases issue_cases server statement s with ⟨_, e, hrun⟩ | ⟨_, n, s', hx, hrun⟩
    | ⟨_, e, e', s', hx, hrun⟩ | ⟨_, e, hrun⟩ | ⟨_, e, hrun⟩ | ⟨_, e, hrun⟩
    | ⟨_, e, m, _, hrun⟩ <;> rw [hrun]
  · exact Or.inl rfl
  · rw [hx] at hexec
    exact Or.inr ⟨true, hnote true hexec⟩
  · rw [hx] at hexec
    exact Or.inr ⟨false, hnote false hexec⟩
  · exact Or.inr ⟨false, rfl⟩
  · exact Or.inr ⟨false, rfl⟩
  · exact Or.inr ⟨false, rfl⟩
  · exact Or.inr ⟨false, hnote false hexec⟩

theorem issue_log (server : Server D S ε) (statement : Statement S) (s : Session D S) :
    s.log <+: (issue server statement s).2.log := by
  rcases issue_noted server statement s with hlog | ⟨accepted, hlog⟩
  · rw [hlog]
  · rw [hlog]
    exact List.prefix_append _ _

/-- A statement moves the session by being executed or refused, by a closing
connection and by the note of it: along whatever each of these goes along. -/
theorem issue_within {R : Session D S → Session D S → Prop} [IsPreorder (Session D S) R]
    {server : Server D S ε} {statement : Statement S}
    (hexecute : ∀ s, R s (execute server statement s).2)
    (hrefuse : ∀ s : Session D S, R s { s with status := refuse statement s.status })
    (hclose : ∀ s : Session D S, R s s.close)
    (hnote : ∀ (s : Session D S) accepted, R s (s.note statement accepted)) :
    Action.Within R (issue server statement) := by
  intro s
  have hexec := hexecute s
  rcases issue_cases server statement s with ⟨_, e, hrun⟩ | ⟨_, n, s', hx, hrun⟩
    | ⟨_, e, e', s', hx, hrun⟩ | ⟨_, e, hrun⟩ | ⟨_, e, hrun⟩ | ⟨_, e, hrun⟩
    | ⟨_, e, m, _, hrun⟩ <;> rw [hrun]
  · exact refl_of R s
  · rw [hx] at hexec
    exact trans_of R hexec (hnote s' true)
  · rw [hx] at hexec
    exact trans_of R hexec (hnote s' false)
  · exact hnote s false
  · exact trans_of R (hrefuse s) (hnote _ false)
  · exact trans_of R (hclose s) (hnote _ false)
  · exact trans_of R (trans_of R hexec (hclose _)) (hnote _ false)

/-- What becomes of the statements ahead does not change. -/
theorem issue_fate (server : Server D S ε) (statement : Statement S) :
    Action.Within (Action.Same Session.fate) (issue server statement) :=
  issue_within (execute_fate server statement) (fun _ => rfl) (fun _ => rfl) (fun _ _ => rfl)

/-- `x` keeps the session inside its block. -/
abbrev Blocked (data : D) (x : Action (Session D S) ε α) : Prop :=
  Action.Within (Action.Preserves (InBlock data)) x

theorem Blocked.query (server : Server D S ε) (data : D) (q : S) :
    Blocked data (issue server (.query q)) :=
  fun _ h => query_inBlock server q h

/-- The log of `t` goes on from that of `s`. -/
def LogGrows (s t : Session D S) : Prop := s.log <+: t.log

instance : IsPreorder (Session D S) LogGrows where
  refl _ := List.prefix_rfl
  trans _ _ _ := List.IsPrefix.trans

/-- `x` only adds to the log. -/
abbrev Grows (x : Action (Session D S) ε α) : Prop := Action.Within LogGrows x

theorem Grows.issue (server : Server D S ε) (statement : Statement S) :
    Grows (Session.issue server statement) :=
  issue_log server statement

/-- Nothing happens on a closed connection. -/
def StaysClosed (s t : Session D S) : Prop := s.connected = false → t = s

instance : IsPreorder (Session D S) StaysClosed where
  refl _ _ := rfl
  trans s t u h h' hclosed := by
    obtain rfl := h hclosed
    exact h' hclosed

theorem issue_staysClosed (server : Server D S ε) (statement : Statement S) :
    Action.Within StaysClosed (issue server statement) := by
  intro s hclosed
  unfold issue
  rw [if_pos hclosed]

/-- `P` holds of the committed data and of the data of an open block. -/
structure Everywhere (P : D → Prop) (s : Session D S) : Prop where
  committed : P s.committed
  working : ∀ working, s.status = .inProgress working → P working

/-- One statement, executed without interference. -/
theorem Everywhere.execute {P : D → Prop} {server : Server D S ε}
    (hserver : ∀ q data data' n, server.exec q data = .ok (data', n) → P data → P data')
    (statement : Statement S) {s : Session D S} (h : Everywhere P s) :
    Everywhere P (Session.execute server statement s).2 := by
  cases statement with
  | begin =>
      cases hs : s.status with
      | idle =>
          simp only [Session.execute, hs]
          exact ⟨h.committed, fun w hw => TxStatus.inProgress.inj hw ▸ h.committed⟩
      | inProgress w => simpa [Session.execute, hs] using h
      | failed => simpa [Session.execute, hs] using h
  | commit =>
      cases hs : s.status with
      | idle => simpa [Session.execute, hs] using ⟨h.committed, nofun⟩
      | inProgress w =>
          -- the data of the block become the committed data
          simp only [Session.execute, hs]
          exact ⟨h.working w hs, nofun⟩
      | failed => simpa [Session.execute, hs] using ⟨h.committed, nofun⟩
  | rollback => exact ⟨h.committed, nofun⟩
  | query q =>
      cases hs : s.status with
      | idle =>
          rcases hq : server.exec q s.committed with e | ⟨d, n⟩
          · simpa [Session.execute, hs, hq] using h
          · simp only [Session.execute, hs, hq]
            exact ⟨hserver q _ d n hq h.committed, nofun⟩
      | inProgress w =>
          rcases hq : server.exec q w with e | ⟨d, n⟩
          · simp only [Session.execute, hs, hq]
            exact ⟨h.committed, nofun⟩
          · simp only [Session.execute, hs, hq]
            exact ⟨h.committed,
              fun w' hw => TxStatus.inProgress.inj hw ▸ hserver q w d n hq (h.working w hs)⟩
      | failed => simpa [Session.execute, hs] using h

/-- A refused statement opens no block. -/
theorem refuse_inProgress {statement : Statement S} {status : TxStatus D} {w : D}
    (h : refuse statement status = .inProgress w) : status = .inProgress w := by
  cases statement with
  | rollback => exact h
  | commit => cases h
  | begin => cases status <;> cases h
  | query q => cases status <;> cases h

/-- What every query of the server preserves holds on everywhere. -/
theorem Everywhere.issue {P : D → Prop} {server : Server D S ε}
    (hserver : ∀ q data data' n, server.exec q data = .ok (data', n) → P data → P data')
    (statement : Statement S) :
    Action.Within (Action.Preserves (Everywhere P)) (Session.issue server statement) := by
  refine issue_within (fun s h => h.execute hserver statement) ?_ ?_ ?_
  · exact fun s h => ⟨h.committed, fun w hw => h.working w (refuse_inProgress hw)⟩
  · exact fun s h => ⟨h.committed, nofun⟩
  · exact fun s accepted h => ⟨h.committed, h.working⟩

/-! ## §4. Transactions. -/

/-- A transaction as a scope: BEGIN, the body and COMMIT; an exception on the
way issues ROLLBACK, ignores what becomes of it, and goes on. -/
def transaction (server : Server D S ε) (body : Action (Session D S) ε α) :
    Action (Session D S) ε α := do
  let _ ← issue server .begin
  Action.onThrow
    (do
      let a ← body
      let _ ← issue server .commit
      return a)
    (do
      let _ ← issue server .rollback
      return ())

/-- What every statement and the body stay within, the transaction does. -/
theorem transaction_within {R : Session D S → Session D S → Prop} [IsPreorder (Session D S) R]
    {server : Server D S ε} {body : Action (Session D S) ε α}
    (hissue : ∀ statement, Action.Within R (issue server statement))
    (hbody : Action.Within R body) : Action.Within R (transaction server body) := by
  refine Within.bind (hissue .begin) (fun _ => Within.onThrow ?_ ?_)
  · exact Within.bind hbody (fun _ => Within.bind (hissue .commit) (fun _ => Within.pure _))
  · exact Within.bind (hissue .rollback) (fun _ => Within.pure _)

/-- BEGIN leaves the session in a block over what it saw before, or changes no
data. -/
theorem begin_cases (server : Server D S ε) (s : Session D S) :
    (∃ e t, issue server .begin s = (.error e, t) ∧ t.committed = s.committed
      ∧ (s.status = .idle → t.status = .idle))
    ∨ (s.connected = true ∧ issue server .begin s
        = (.ok 0, { s with status := .inProgress s.visible }.note .begin true)) := by
  have hexec : (execute server .begin s).2.committed = s.committed := by
    cases hs : s.status <;> simp [execute, hs]
  rcases issue_cases server .begin s with ⟨_, e, hrun⟩ | ⟨hc, n, s', hx, hrun⟩
    | ⟨_, e, e', s', hx, hrun⟩ | ⟨_, e, hrun⟩ | ⟨_, e, hrun⟩ | ⟨_, e, hrun⟩
    | ⟨_, e, m, _, hrun⟩
  · exact Or.inl ⟨e, _, hrun, rfl, id⟩
  · right
    refine ⟨hc, ?_⟩
    rw [hrun]
    unfold visible
    cases hs : s.status with
    | idle =>
        simp only [execute, hs, Prod.mk.injEq, Except.ok.injEq] at hx
        rw [← hx.1, ← hx.2]
    | inProgress working =>
        simp only [execute, hs, Prod.mk.injEq, Except.ok.injEq] at hx
        rw [← hx.1, ← hx.2, ← hs]
    | failed => simp [execute, hs] at hx
  · rw [hx] at hexec
    refine Or.inl ⟨e', _, hrun, hexec, fun hs => ?_⟩
    simp [execute, hs] at hx
  · exact Or.inl ⟨e, _, hrun, rfl, id⟩
  · refine Or.inl ⟨e, _, hrun, rfl, fun hs => ?_⟩
    show refuse .begin s.status = .idle
    rw [hs]
    rfl
  · exact Or.inl ⟨e, _, hrun, rfl, fun _ => rfl⟩
  · exact Or.inl ⟨e, _, hrun, hexec, fun _ => rfl⟩

/-- From `s` to `t` a COMMIT was executed, and the connection broke before its
answer. -/
structure Unanswered (s t : Session D S) : Prop where
  committed : ∀ working, s.status = .inProgress working → t.committed = working
  status : t.status = .idle
  connected : t.connected = false
  log : t.log = s.log ++ [(.commit, false)]
  fate : ∃ message, t.fate s.log.length = .unanswered message

/-- No statement was executed without an answer to it. -/
def Answered (s : Session D S) : Prop :=
  ∀ n, n < s.log.length → ∀ message, s.fate n ≠ .unanswered message

/-- No COMMIT was executed without an answer to it: one that failed has applied
nothing. -/
def CommitsAnswered (s : Session D S) : Prop :=
  ∀ n, s.log[n]? = some (.commit, false) → ∀ message, s.fate n ≠ .unanswered message

theorem Answered.commits {s : Session D S} (h : Answered s) : CommitsAnswered s := by
  intro n hn
  exact h n (List.getElem?_eq_some_iff.mp hn).1

theorem AllAnswered.answered {s t : Session D S} (h : AllAnswered s.fate)
    (hfate : t.fate = s.fate) : Answered t := by
  intro n _
  rw [hfate]
  exact h n

theorem Answered.of_grows {s t : Session D S} (hgrows : LogGrows s t) (hfate : t.fate = s.fate)
    (h : Answered t) : Answered s := by
  intro n hn
  rw [← hfate]
  exact h n (hn.trans_le hgrows.length_le)

/-- The connection is closed, or has answered every statement. -/
def AnsweredWhileOpen (s : Session D S) : Prop := s.connected = true → Answered s

/-- **A connection stays open only while it answers.** -/
theorem issue_answers (server : Server D S ε) (statement : Statement S) :
    Action.Within (Action.Preserves AnsweredWhileOpen) (issue server statement) := by
  intro s h hopen
  have hc : s.connected = true := by
    by_contra hclosed
    have hrun : issue server statement s = (.error (server.closed statement), s) := by
      unfold issue
      rw [if_pos (Bool.eq_false_of_not_eq_true hclosed)]
    rw [hrun] at hopen
    exact hclosed hopen
  -- the statement itself has been answered, or the connection would be closed
  have hlast : ∀ message, s.fate s.log.length ≠ .unanswered message := by
    intro message hfate
    have hclosed : (issue server statement s).2.connected = false := by
      unfold issue
      rw [if_neg (by rw [hc]; decide), hfate]
      rfl
    rw [hclosed] at hopen
    cases hopen
  have hlog : (issue server statement s).2.log.length ≤ s.log.length + 1 := by
    rcases issue_noted server statement s with hlog | ⟨accepted, hlog⟩ <;> simp [hlog]
  intro n hn
  rw [issue_fate]
  rcases Nat.lt_succ_iff_lt_or_eq.mp (hn.trans_le hlog) with hlt | rfl
  · exact h hc n hlt
  · exact hlast

theorem not_answered_of_fate {s t : Session D S} {statement : Statement S} {message : Str}
    (hlog : t.log = s.log ++ [(statement, false)]) (hfate : t.fate = s.fate)
    (h : s.fate s.log.length = .unanswered message) : ¬ Answered t := by
  intro hanswered
  refine hanswered s.log.length ?_ message (hfate ▸ h)
  rw [hlog, List.length_append]
  exact Nat.lt_succ_self _

theorem Unanswered.not_commitsAnswered {s t : Session D S} (h : Unanswered s t) :
    ¬ CommitsAnswered t := by
  obtain ⟨message, hmessage⟩ := h.fate
  intro hanswered
  refine hanswered s.log.length ?_ message hmessage
  rw [h.log]
  exact List.getElem?_concat_length

/-- A COMMIT that fails applies nothing, unless only its answer is missing. -/
theorem commit_error {server : Server D S ε} {s t : Session D S} {e : ε}
    (h : issue server .commit s = (.error e, t))
    (hclosed : s.connected = false → s.status = .idle) :
    (t.committed = s.committed ∧ (t.connected = false → t.status = .idle)) ∨ Unanswered s t := by
  obtain ⟨s'', hs'', _, hworking, _, hlog, hfate⟩ := execute_commit server s
  rcases issue_cases server .commit s with ⟨_, e', hrun⟩ | ⟨_, n, s', _, hrun⟩
    | ⟨_, e₁, e', s', hx, hrun⟩ | ⟨_, e', hrun⟩ | ⟨_, e', hrun⟩ | ⟨_, e', hrun⟩
    | ⟨_, e', m, hm, hrun⟩ <;>
    rw [hrun, Prod.mk.injEq] at h <;> obtain ⟨hr, rfl⟩ := h
  · exact Or.inl ⟨rfl, hclosed⟩
  · cases hr
  · rw [hs''] at hx
    cases hx
  · exact Or.inl ⟨rfl, hclosed⟩
  · exact Or.inl ⟨rfl, fun _ => rfl⟩
  · exact Or.inl ⟨rfl, fun _ => rfl⟩
  · rw [hs'']
    exact Or.inr ⟨hworking, rfl, rfl, by rw [← hlog]; rfl, m, (congrFun hfate _).trans hm⟩

/-- ROLLBACK commits nothing, and ends the block unless it fails itself. -/
theorem rollback_cases (server : Server D S ε) {s : Session D S}
    (hclosed : s.connected = false → s.status = .idle) :
    (issue server .rollback s).2.committed = s.committed
    ∧ ((issue server .rollback s).2.status = .idle
      ∨ (issue server .rollback s).2.log = s.log ++ [(.rollback, false)]) := by
  rcases issue_cases server .rollback s with ⟨hc, e, hrun⟩ | ⟨_, n, s', hx, hrun⟩
    | ⟨_, e, e', s', hx, hrun⟩ | ⟨_, e, hrun⟩ | ⟨_, e, hrun⟩ | ⟨_, e, hrun⟩
    | ⟨_, e, m, _, hrun⟩ <;> rw [hrun]
  · exact ⟨rfl, Or.inl (hclosed hc)⟩
  · simp only [execute, Prod.mk.injEq] at hx
    obtain ⟨_, rfl⟩ := hx
    exact ⟨rfl, Or.inl rfl⟩
  · simp [execute] at hx
  · exact ⟨rfl, Or.inr rfl⟩
  · exact ⟨rfl, Or.inr rfl⟩
  · exact ⟨rfl, Or.inl rfl⟩
  · exact ⟨rfl, Or.inl rfl⟩

/-- What a transaction leaves that throws and has not been committed: the data as
it was, and no block unless its ROLLBACK failed. -/
structure Unwound (s t : Session D S) : Prop where
  committed : t.committed = s.committed
  ended : s.status = .idle →
    t.status = .idle ∨ ∃ between, t.log = s.log ++ between ++ [(.rollback, false)]

/-- Once a body or its COMMIT has thrown, the ROLLBACK unwinds. -/
theorem unwound_of_rollback (server : Server D S ε) {s s' : Session D S}
    (hdata : s'.committed = s.committed) (hclosed : s'.connected = false → s'.status = .idle)
    (hlog : s.log <+: s'.log) :
    Unwound s ((do
      let _ ← issue server .rollback
      return () : Action (Session D S) ε Unit) s').2 := by
  have hstate : ((do
      let _ ← issue server .rollback
      return () : Action (Session D S) ε Unit) s').2 = (issue server .rollback s').2 := by
    rw [Action.bind_run]
    rcases issue server .rollback s' with ⟨r, t⟩
    cases r <;> rfl
  obtain ⟨hcommitted, hended⟩ := rollback_cases server hclosed
  rw [hstate]
  refine ⟨hcommitted.trans hdata, fun _ => ?_⟩
  rcases hended with hidle | hlast
  · exact Or.inl hidle
  · obtain ⟨between, hbetween⟩ := hlog
    exact Or.inr ⟨between, by rw [hlast, hbetween]⟩

/-- On a closed connection the ROLLBACK does nothing. -/
theorem rollback_closed (server : Server D S ε) {s : Session D S} (hs : s.connected = false) :
    ((do
      let _ ← issue server .rollback
      return () : Action (Session D S) ε Unit) s).2 = s := by
  have hrun : issue server .rollback s = (.error (server.closed .rollback), s) := by
    unfold issue
    rw [if_pos hs]
  rw [Action.bind_error hrun]

/-- **A transaction is all or nothing.**  It either throws and leaves the
committed data as it was, or its BEGIN, its body and its COMMIT have all been
executed; it returns if they have been answered as well. -/
theorem transaction_cases (server : Server D S ε) (body : Action (Session D S) ε α)
    {s : Session D S} (hbody : Blocked s.committed body) (hgrows : Grows body) :
    (∃ e t, transaction server body s = (.error e, t) ∧ Unwound s t)
    ∨ (∃ a s₁ s₂ t n, s.connected = true
        ∧ s₁ = ({ s with status := .inProgress s.visible }.note .begin true)
        ∧ body s₁ = (.ok a, s₂) ∧ issue server .commit s₂ = (.ok n, t)
        ∧ transaction server body s = (.ok a, t))
    ∨ (∃ e a s₁ s₂ t, s₁ = ({ s with status := .inProgress s.visible }.note .begin true)
        ∧ body s₁ = (.ok a, s₂) ∧ Unanswered s₂ t
        ∧ transaction server body s = (.error e, t)) := by
  unfold transaction
  rcases begin_cases server s with ⟨e, t, hrun, hdata, hidle⟩ | ⟨hc, hrun⟩
  · rw [Action.bind_error hrun]
    exact Or.inl ⟨e, t, rfl, hdata, fun hs => Or.inl (hidle hs)⟩
  rw [Action.bind_ok hrun]
  set s₁ : Session D S :=
    ({ s with status := .inProgress s.visible } : Session D S).note .begin true with hs₁
  have hblock : InBlock s.committed s₁ := by
    refine ⟨rfl, fun _ => nofun, fun hf => ?_⟩
    have hf' : s.connected = false := hf
    rw [hc] at hf'
    cases hf'
  have hlog₁ : s.log <+: s₁.log := List.prefix_append _ _
  have hblock₂ := hbody s₁ hblock
  have hlog₂ := hgrows s₁
  rcases hb : body s₁ with ⟨r, s₂⟩
  rw [hb] at hblock₂ hlog₂
  cases r with
  | error e =>
      -- the body threw, and a ROLLBACK follows
      rw [Action.onThrow_error (Action.bind_error hb)]
      exact Or.inl ⟨e, _, rfl,
        unwound_of_rollback server hblock₂.committed hblock₂.closed (hlog₁.trans hlog₂)⟩
  | ok a =>
      have hlog₃ := issue_log server .commit s₂
      rcases hcommit : issue server .commit s₂ with ⟨r', t⟩
      rw [hcommit] at hlog₃
      cases r' with
      | error e =>
          -- the COMMIT of a body that returned has failed
          have hthrow : (body >>= fun a => issue server .commit >>= fun _ => pure a) s₁
              = (.error e, t) := by
            rw [Action.bind_ok hb, Action.bind_error hcommit]
          rw [Action.onThrow_error hthrow]
          rcases commit_error hcommit hblock₂.closed with ⟨hdata, hclosed⟩ | hunanswered
          · exact Or.inl ⟨e, _, rfl, unwound_of_rollback server (hdata.trans hblock₂.committed)
              hclosed ((hlog₁.trans hlog₂).trans hlog₃)⟩
          · rw [rollback_closed server hunanswered.connected]
            exact Or.inr (Or.inr ⟨e, a, s₁, s₂, t, rfl, hb, hunanswered, rfl⟩)
      | ok n =>
          have hreturn : (body >>= fun a => issue server .commit >>= fun _ => pure a) s₁
              = (.ok a, t) := by
            rw [Action.bind_ok hb, Action.bind_ok hcommit]
            rfl
          rw [Action.onThrow_ok hreturn]
          exact Or.inr (Or.inl ⟨a, s₁, s₂, t, n, hc, rfl, hb, hcommit, rfl⟩)

end Session

end FinCore.Sql

/-
  FinCore.Sql.Simulation
  ──────────────────────
  A server that refuses more than another.

  `view` forgets what the second server does not know.  Where the first server
  executes a query, so does the second; where it refuses one, the second may be
  thought to have met a refusal as the fate of the statement.  A client of the
  first is then a client of the second, for some fates of its statements
  (`Simulated`), and what holds of the second for every fate holds of the first.
-/
import FinCore.Sql.Batch

namespace FinCore.Sql

open FinCore.Cxx

variable {D D' S S' ε α β : Type}

/-! ## §1. Two servers. -/

/-- The same statement on both sides, with related queries. -/
inductive Statement.Related (T : S → S' → Prop) : Statement S → Statement S' → Prop
  | begin : Related T .begin .begin
  | commit : Related T .commit .commit
  | rollback : Related T .rollback .rollback
  | query {q : S} {q' : S'} (h : T q q') : Related T (.query q) (.query q')

def TxStatus.map (f : D → D') : TxStatus D → TxStatus D'
  | .idle => .idle
  | .inProgress working => .inProgress (f working)
  | .failed => .failed

/-- On related queries, `server'` does what `server` does unless that refuses. -/
structure Relaxes (view : D → D') (T : S → S' → Prop) (server : Server D S ε)
    (server' : Server D' S' ε) : Prop where
  exec : ∀ q q', T q q' → ∀ data data' n, server.exec q data = .ok (data', n) →
    server'.exec q' (view data) = .ok (view data', n)
  error : server'.error = server.error
  closed : ∀ statement statement', statement.Related T statement' →
    server'.closed statement' = server.closed statement

/-- A sequence of queries that `server` takes, `server'` takes. -/
theorem Relaxes.execAll {view : D → D'} {T : S → S' → Prop} {server : Server D S ε}
    {server' : Server D' S' ε} (hrelaxes : Relaxes view T server server') {queries : List S}
    {queries' : List S'} (h : List.Forall₂ T queries queries') :
    ∀ {data data' : D} {n : ℕ}, Sql.execAll server queries data = .ok (data', n) →
      Sql.execAll server' queries' (view data) = .ok (view data', n) := by
  induction h with
  | nil =>
      intro data data' n hrun
      rw [Sql.execAll, Except.ok.injEq, Prod.mk.injEq] at hrun
      rw [Sql.execAll, hrun.1, hrun.2]
  | cons hq _ ih =>
      intro data data' n hrun
      obtain ⟨d, k, m, hexec, hrest, rfl⟩ := execAll_cons_ok hrun
      rw [Sql.execAll, hrelaxes.exec _ _ hq _ _ _ hexec]
      simp only [ih hrest]

namespace Session

open Action

/-- Two sessions side by side. -/
structure Matches (view : D → D') (T : S → S' → Prop) (s : Session D S) (p : Session D' S') :
    Prop where
  committed : p.committed = view s.committed
  status : p.status = s.status.map view
  connected : p.connected = s.connected
  log : List.Forall₂ (fun entry entry' => entry.1.Related T entry'.1 ∧ entry'.2 = entry.2)
    s.log p.log

/-- Whatever `x` does, `y` does beside it, for some fates of the statements
that `x` issues. -/
def Simulated (view : D → D') (T : S → S' → Prop) (x : Action (Session D S) ε α)
    (y : Action (Session D' S') ε α) : Prop :=
  ∀ s : Session D S, s.log.length ≤ (x s).2.log.length ∧
    ∃ fate : ℕ → Fate, ∀ p : Session D' S', Matches view T s p →
      (∀ i, s.log.length ≤ i → i < (x s).2.log.length → p.fate i = fate i) →
      (y p).1 = (x s).1 ∧ Matches view T (x s).2 (y p).2 ∧ (y p).2.fate = p.fate

variable {view : D → D'} {T : S → S' → Prop}

theorem Matches.log_length {s : Session D S} {p : Session D' S'} (h : Matches view T s p) :
    p.log.length = s.log.length :=
  h.log.length_eq.symm

theorem Matches.note {s : Session D S} {p : Session D' S'} (h : Matches view T s p)
    {statement : Statement S} {statement' : Statement S'} (hrelated : statement.Related T statement')
    (accepted : Bool) :
    Matches view T (s.note statement accepted) (p.note statement' accepted) :=
  ⟨h.committed, h.status, h.connected,
    List.rel_append h.log (.cons ⟨hrelated, rfl⟩ .nil)⟩

theorem Matches.close {s : Session D S} {p : Session D' S'} (h : Matches view T s p) :
    Matches view T s.close p.close :=
  ⟨h.committed, rfl, rfl, h.log⟩

theorem refuse_map {statement : Statement S} {statement' : Statement S'}
    (h : statement.Related T statement') (status : TxStatus D) :
    refuse statement' (status.map view) = (refuse statement status).map view := by
  cases h <;> cases status <;> rfl

/-! ## §2. One statement. -/

/-- A statement that the server refuses changes the block as a refusal
does. -/
theorem execute_error {server : Server D S ε} {statement : Statement S} {s s' : Session D S}
    {e : Str × Str} (h : execute server statement s = (.error e, s')) :
    s' = { s with status := refuse statement s.status } := by
  cases statement with
  | commit => cases hs : s.status <;> simp [execute, hs] at h
  | rollback => simp [execute] at h
  | begin =>
      cases hs : s.status with
      | failed =>
          simp only [execute, hs, Prod.mk.injEq] at h
          rw [← h.2]
          show s = { s with status := .failed }
          rw [← hs]
      | idle => simp [execute, hs] at h
      | inProgress working => simp [execute, hs] at h
  | query q =>
      cases hs : s.status with
      | idle =>
          rcases hq : server.exec q s.committed with e' | ⟨data, n⟩
          · simp only [execute, hs, hq, Prod.mk.injEq] at h
            rw [← h.2]
            show s = { s with status := .idle }
            rw [← hs]
          · simp [execute, hs, hq] at h
      | inProgress working => exact execute_query_error h (by simp [hs])
      | failed => exact execute_query_error h (by simp [hs])

/-- What a statement on an open connection does, once its fate is known. -/
def meet (server : Server D S ε) (statement : Statement S) (fate : Fate) (s : Session D S) :
    Except ε ℕ × Session D S :=
  match fate with
  | .sent =>
      match execute server statement s with
      | (.ok n, s') => (.ok n, s'.note statement true)
      | (.error e, s') => (.error (server.error e.1 e.2), s'.note statement false)
  | .unsent message => (.error (server.error message []), s.note statement false)
  | .refused message sqlState =>
      (.error (server.error message sqlState),
        { s with status := refuse statement s.status }.note statement false)
  | .lost message => (.error (server.error message []), s.close.note statement false)
  | .unanswered message =>
      (.error (server.error message []), (execute server statement s).2.close.note statement false)

theorem issue_closed {server : Server D S ε} {statement : Statement S} {s : Session D S}
    (h : s.connected = false) :
    issue server statement s = (.error (server.closed statement), s) :=
  if_pos h

theorem issue_open {server : Server D S ε} {statement : Statement S} {s : Session D S}
    (h : s.connected = true) :
    issue server statement s = meet server statement (s.fate s.log.length) s :=
  if_neg (by rw [h]; decide)

/-- Every statement on an open connection is noted. -/
theorem meet_log_length (server : Server D S ε) (statement : Statement S) (fate : Fate)
    (s : Session D S) : (meet server statement fate s).2.log.length = s.log.length + 1 := by
  have hnote : ∀ {t : Session D S} (accepted : Bool), t.log = s.log →
      (t.note statement accepted).log.length = s.log.length + 1 := by
    intro t accepted ht
    show (t.log ++ _).length = _
    rw [ht, List.length_append, List.length_singleton]
  cases fate with
  | sent =>
      have hlog := execute_log server statement s
      unfold meet
      rcases hx : execute server statement s with ⟨r, s'⟩
      rw [hx] at hlog
      cases r with
      | ok n => exact hnote true hlog
      | error e => exact hnote false hlog
  | unsent m => exact hnote false rfl
  | refused m c => exact hnote false rfl
  | lost m => exact hnote false rfl
  | unanswered m => exact hnote false (execute_log server statement s)

section Relaxes

variable {server : Server D S ε} {server' : Server D' S' ε}
  (hrelaxes : Relaxes view T server server')

include hrelaxes

/-- What the one server executes, the other does. -/
theorem execute_ok_matches {statement : Statement S} {statement' : Statement S'}
    (hrelated : statement.Related T statement') {s s' : Session D S} {p : Session D' S'} {n : ℕ}
    (hmatches : Matches view T s p) (h : execute server statement s = (.ok n, s')) :
    ∃ p', execute server' statement' p = (.ok n, p') ∧ Matches view T s' p' ∧ p'.fate = p.fate := by
  have hstatus := hmatches.status
  cases hrelated with
  | begin =>
      cases hs : s.status with
      | idle =>
          rw [hs] at hstatus
          simp only [execute, hs, Prod.mk.injEq, Except.ok.injEq] at h
          obtain ⟨rfl, rfl⟩ := h
          refine ⟨{ p with status := .inProgress p.committed }, ?_, ?_, rfl⟩
          · simp only [execute, hstatus, TxStatus.map]
          · exact ⟨hmatches.committed, congrArg _ hmatches.committed, hmatches.connected,
              hmatches.log⟩
      | inProgress working =>
          rw [hs] at hstatus
          simp only [execute, hs, Prod.mk.injEq, Except.ok.injEq] at h
          obtain ⟨rfl, rfl⟩ := h
          exact ⟨p, by simp only [execute, hstatus, TxStatus.map], hmatches, rfl⟩
      | failed => simp [execute, hs] at h
  | commit =>
      cases hs : s.status with
      | idle | failed =>
          rw [hs] at hstatus
          simp only [execute, hs, Prod.mk.injEq, Except.ok.injEq] at h
          obtain ⟨rfl, rfl⟩ := h
          refine ⟨{ p with status := .idle }, ?_, ?_, rfl⟩
          · simp only [execute, hstatus, TxStatus.map]
          · exact ⟨hmatches.committed, rfl, hmatches.connected, hmatches.log⟩
      | inProgress working =>
          rw [hs] at hstatus
          simp only [execute, hs, Prod.mk.injEq, Except.ok.injEq] at h
          obtain ⟨rfl, rfl⟩ := h
          refine ⟨{ p with committed := view working, status := .idle }, ?_, ?_, rfl⟩
          · simp only [execute, hstatus, TxStatus.map]
          · exact ⟨rfl, rfl, hmatches.connected, hmatches.log⟩
  | rollback =>
      simp only [execute, Prod.mk.injEq, Except.ok.injEq] at h
      obtain ⟨rfl, rfl⟩ := h
      refine ⟨{ p with status := .idle }, ?_, ?_, rfl⟩
      · simp only [execute]
      · exact ⟨hmatches.committed, rfl, hmatches.connected, hmatches.log⟩
  | @query q q' hq' =>
      cases hs : s.status with
      | idle =>
          rw [hs] at hstatus
          rcases hq : server.exec q s.committed with e | ⟨data, m⟩
          · simp [execute, hs, hq] at h
          · have hexec := hrelaxes.exec q q' hq' _ _ _ hq
            rw [← hmatches.committed] at hexec
            simp only [execute, hs, hq, Prod.mk.injEq, Except.ok.injEq] at h
            obtain ⟨rfl, rfl⟩ := h
            refine ⟨{ p with committed := view data }, ?_, ?_, rfl⟩
            · simp only [execute, hstatus, TxStatus.map, hexec]
            · exact ⟨rfl, hstatus, hmatches.connected, hmatches.log⟩
      | inProgress working =>
          rw [hs] at hstatus
          rcases hq : server.exec q working with e | ⟨data, m⟩
          · simp [execute, hs, hq] at h
          · have hexec := hrelaxes.exec q q' hq' _ _ _ hq
            simp only [execute, hs, hq, Prod.mk.injEq, Except.ok.injEq] at h
            obtain ⟨rfl, rfl⟩ := h
            refine ⟨{ p with status := .inProgress (view data) }, ?_, ?_, rfl⟩
            · simp only [execute, hstatus, TxStatus.map, hexec]
            · exact ⟨hmatches.committed, rfl, hmatches.connected, hmatches.log⟩
      | failed => simp [execute, hs] at h

/-- A statement that the first server refuses has been refused to the second:
every fate with the one is a fate with the other. -/
theorem meet_simulated {statement : Statement S} {statement' : Statement S'}
    (hrelated : statement.Related T statement') (fate : Fate) (s : Session D S) :
    ∃ fate', ∀ p, Matches view T s p →
      (meet server' statement' fate' p).1 = (meet server statement fate s).1
      ∧ Matches view T (meet server statement fate s).2
        (meet server' statement' fate' p).2
      ∧ (meet server' statement' fate' p).2.fate = p.fate := by
  -- the two blocks after a refusal
  have hrefused : ∀ p, Matches view T s p →
      Matches view T
        (({ s with status := refuse statement s.status } : Session D S).note statement false)
        (({ p with status := refuse statement' p.status } : Session D' S').note
          statement' false) := by
    intro p hmatches
    have hstatus : refuse statement' p.status
        = (refuse statement s.status).map view := by
      rw [hmatches.status, refuse_map hrelated]
    have hblocks : Matches view T { s with status := refuse statement s.status }
        { p with status := refuse statement' p.status } :=
      ⟨hmatches.committed, hstatus, hmatches.connected, hmatches.log⟩
    exact hblocks.note hrelated false
  cases fate with
  | sent =>
      rcases hx : execute server statement s with ⟨r, s'⟩
      cases r with
      | ok n =>
          refine ⟨.sent, fun p hmatches => ?_⟩
          obtain ⟨p', hx', hmatches', hfate'⟩ :=
            execute_ok_matches hrelaxes hrelated hmatches hx
          simp only [meet, hx, hx']
          exact ⟨trivial, hmatches'.note hrelated true, hfate'⟩
      | error e =>
          refine ⟨.refused e.1 e.2, fun p hmatches => ?_⟩
          simp only [meet, hx, hrelaxes.error]
          refine ⟨trivial, ?_, rfl⟩
          rw [execute_error hx]
          exact hrefused p hmatches
  | unsent m =>
      refine ⟨.unsent m, fun p hmatches => ?_⟩
      simp only [meet, hrelaxes.error]
      exact ⟨trivial, hmatches.note hrelated false, rfl⟩
  | refused m c =>
      refine ⟨.refused m c, fun p hmatches => ?_⟩
      simp only [meet, hrelaxes.error]
      exact ⟨trivial, hrefused p hmatches, rfl⟩
  | lost m =>
      refine ⟨.lost m, fun p hmatches => ?_⟩
      simp only [meet, hrelaxes.error]
      exact ⟨trivial, hmatches.close.note hrelated false, rfl⟩
  | unanswered m =>
      rcases hx : execute server statement s with ⟨r, s'⟩
      cases r with
      | ok n =>
          refine ⟨.unanswered m, fun p hmatches => ?_⟩
          obtain ⟨p', hx', hmatches', hfate'⟩ :=
            execute_ok_matches hrelaxes hrelated hmatches hx
          simp only [meet, hx, hx', hrelaxes.error]
          exact ⟨trivial, hmatches'.close.note hrelated false, hfate'⟩
      | error e =>
          -- what the first server has refused, the second has never got
          refine ⟨.lost m, fun p hmatches => ?_⟩
          simp only [meet, hx, hrelaxes.error]
          refine ⟨trivial, ?_, rfl⟩
          rw [execute_error hx]
          exact hmatches.close.note hrelated false

/-- **A statement to the one server is a statement to the other.** -/
theorem Simulated.issue {statement : Statement S} {statement' : Statement S'}
    (hrelated : statement.Related T statement') :
    Simulated view T (Session.issue server statement) (Session.issue server' statement') := by
  intro s
  refine ⟨(issue_log server statement s).length_le, ?_⟩
  cases hc : s.connected with
  | false =>
      rw [issue_closed hc]
      refine ⟨s.fate, fun p hmatches _ => ?_⟩
      rw [issue_closed (hmatches.connected.trans hc), hrelaxes.closed _ _ hrelated]
      exact ⟨rfl, hmatches, rfl⟩
  | true =>
      rw [issue_open hc, meet_log_length]
      obtain ⟨fate', hfate'⟩ :=
        meet_simulated hrelaxes hrelated (s.fate s.log.length) s
      refine ⟨fun _ => fate', fun p hmatches hagree => ?_⟩
      rw [issue_open (hmatches.connected.trans hc), hmatches.log_length,
        hagree _ le_rfl (Nat.lt_succ_self _)]
      exact hfate' p hmatches

end Relaxes

/-! ## §3. Programs. -/

theorem Simulated.pure (a : α) :
    Simulated view T (Pure.pure a : Action (Session D S) ε α) (Pure.pure a) :=
  fun s => ⟨le_rfl, s.fate, fun _ hmatches _ => ⟨rfl, hmatches, rfl⟩⟩

/-- After a pure computation, which is the same on both sides. -/
theorem Simulated.ofExcept_bind {r : Except ε α} {f : α → Action (Session D S) ε β}
    {g : α → Action (Session D' S') ε β} (h : ∀ a, r = .ok a → Simulated view T (f a) (g a)) :
    Simulated view T (Action.ofExcept r >>= f) (Action.ofExcept r >>= g) := by
  cases r with
  | error e => exact fun s => ⟨le_rfl, s.fate, fun _ hmatches _ => ⟨rfl, hmatches, rfl⟩⟩
  | ok a => exact h a rfl

/-- Two parts of a run are simulated one after the other: the fates of the
second part start where the log of the first ends. -/
theorem simulated_seq {x : Action (Session D S) ε α} {y : Action (Session D' S') ε α}
    {s t : Session D S} {r : Except ε β}
    {rest : Session D' S' → Except ε β × Session D' S'} (hx : Simulated view T x y)
    (hlog : (x s).2.log.length ≤ t.log.length)
    (hrest : ∃ fate : ℕ → Fate, ∀ p, Matches view T (x s).2 p →
      (∀ i, (x s).2.log.length ≤ i → i < t.log.length → p.fate i = fate i) →
      (rest p).1 = r ∧ Matches view T t (rest p).2 ∧ (rest p).2.fate = p.fate) :
    ∃ fate : ℕ → Fate, ∀ p, Matches view T s p →
      (∀ i, s.log.length ≤ i → i < t.log.length → p.fate i = fate i) →
      (y p).1 = (x s).1 ∧ (rest (y p).2).1 = r ∧ Matches view T t (rest (y p).2).2
        ∧ (rest (y p).2).2.fate = p.fate := by
  obtain ⟨hgrows, fate₁, h₁⟩ := hx s
  obtain ⟨fate₂, h₂⟩ := hrest
  refine ⟨fun i => if i < (x s).2.log.length then fate₁ i else fate₂ i, ?_⟩
  intro p hmatches hagree
  obtain ⟨hresult, hmid, hfate⟩ := h₁ p hmatches (by
    intro i hi hlt
    exact (hagree i hi (hlt.trans_le hlog)).trans (if_pos hlt))
  obtain ⟨hresult', hend, hfate'⟩ := h₂ (y p).2 hmid (by
    intro i hi hlt
    rw [hfate]
    exact (hagree i (hgrows.trans hi) hlt).trans (if_neg (not_lt.mpr hi)))
  exact ⟨hresult, hresult', hend, hfate'.trans hfate⟩

theorem Simulated.bind {x : Action (Session D S) ε α} {y : Action (Session D' S') ε α}
    {f : α → Action (Session D S) ε β} {g : α → Action (Session D' S') ε β}
    (hx : Simulated view T x y) (hf : ∀ a, Simulated view T (f a) (g a)) :
    Simulated view T (x >>= f) (y >>= g) := by
  intro s
  have hgrows := (hx s).1
  rcases hrun : x s with ⟨r, s'⟩
  cases r with
  | error e =>
      obtain ⟨_, fate, h⟩ := hx s
      rw [hrun] at hgrows h
      rw [bind_error hrun]
      refine ⟨hgrows, fate, fun p hmatches hagree => ?_⟩
      obtain ⟨hresult, hmatches', hfate⟩ := h p hmatches hagree
      have hy : y p = (.error e, (y p).2) := Prod.ext hresult rfl
      rw [bind_error hy]
      exact ⟨rfl, hmatches', hfate⟩
  | ok a =>
      obtain ⟨hgrows', hrest⟩ := hf a s'
      rw [bind_ok hrun]
      rw [hrun] at hgrows
      refine ⟨hgrows.trans hgrows', ?_⟩
      have hs' : (x s).2 = s' := by rw [hrun]
      rw [← hs'] at hgrows' hrest
      obtain ⟨fate, h⟩ := simulated_seq hx hgrows' hrest
      rw [hs'] at h
      refine ⟨fate, fun p hmatches hagree => ?_⟩
      obtain ⟨hresult, hrest'⟩ := h p hmatches hagree
      have hy : y p = (.ok a, (y p).2) := Prod.ext (hresult.trans (by rw [hrun])) rfl
      rw [bind_ok hy]
      exact hrest'

theorem Simulated.onThrow {x : Action (Session D S) ε α} {y : Action (Session D' S') ε α}
    {c : Action (Session D S) ε Unit} {d : Action (Session D' S') ε Unit}
    (hx : Simulated view T x y) (hc : Simulated view T c d) :
    Simulated view T (Action.onThrow x c) (Action.onThrow y d) := by
  intro s
  obtain ⟨hgrows, fate, h⟩ := hx s
  rcases hrun : x s with ⟨r, s'⟩
  rw [hrun] at hgrows h
  cases r with
  | ok a =>
      rw [onThrow_ok hrun]
      refine ⟨hgrows, fate, fun p hmatches hagree => ?_⟩
      obtain ⟨hresult, hmatches', hfate⟩ := h p hmatches hagree
      have hy : y p = (.ok a, (y p).2) := Prod.ext hresult rfl
      rw [onThrow_ok hy]
      exact ⟨rfl, hmatches', hfate⟩
  | error e =>
      -- the cleanup follows, on both sides
      obtain ⟨hgrows', hrest⟩ := hc s'
      rw [onThrow_error hrun]
      refine ⟨hgrows.trans hgrows', ?_⟩
      have hs' : (x s).2 = s' := by rw [hrun]
      rw [← hs'] at hgrows' hrest
      obtain ⟨fate', h'⟩ := simulated_seq hx hgrows' hrest
      rw [hs'] at h'
      refine ⟨fate', fun p hmatches hagree => ?_⟩
      obtain ⟨hresult, _, hend, hfate⟩ := h' p hmatches hagree
      have hy : y p = (.error e, (y p).2) := Prod.ext (hresult.trans (by rw [hrun])) rfl
      rw [onThrow_error hy]
      exact ⟨rfl, hend, hfate⟩

theorem Simulated.attempt {x : Action (Session D S) ε α} {y : Action (Session D' S') ε α}
    (hx : Simulated view T x y) :
    Simulated view T (Action.attempt x) (Action.attempt y) := by
  intro s
  obtain ⟨hgrows, fate, h⟩ := hx s
  refine ⟨hgrows, fate, fun p hmatches hagree => ?_⟩
  obtain ⟨hresult, hmatches', hfate⟩ := h p hmatches hagree
  exact ⟨congrArg Except.ok hresult, hmatches', hfate⟩

/-- **A run of calls to the one server is a run of calls to the other**, with
the same results. -/
theorem Simulated.attemptAll {xs : List (Action (Session D S) ε α)}
    {ys : List (Action (Session D' S') ε α)}
    (h : List.Forall₂ (Simulated view T) xs ys) :
    Simulated view T (Action.attemptAll xs) (Action.attemptAll ys) := by
  induction h with
  | nil => exact Simulated.pure []
  | cons hhead _ ih =>
      exact Simulated.bind hhead.attempt (fun _ => Simulated.bind ih (fun _ => Simulated.pure _))

section Transaction

variable {server : Server D S ε} {server' : Server D' S' ε}

theorem Simulated.transaction (hrelaxes : Relaxes view T server server')
    {body : Action (Session D S) ε α} {body' : Action (Session D' S') ε α}
    (hbody : Simulated view T body body') :
    Simulated view T (Session.transaction server body)
      (Session.transaction server' body') := by
  refine Simulated.bind (Simulated.issue hrelaxes .begin)
    (fun _ => Simulated.onThrow ?_ ?_)
  · refine Simulated.bind hbody (fun a => ?_)
    exact Simulated.bind (Simulated.issue hrelaxes .commit)
      (fun _ => Simulated.pure a)
  · exact Simulated.bind (Simulated.issue hrelaxes .rollback)
      (fun _ => Simulated.pure ())

/-- A query that reads the data through `view`. -/
theorem Simulated.read (hrelaxes : Relaxes view T server server') (closed : ε)
    (fate : Fate) {query : D → α} {query' : D' → α}
    (hquery : ∀ data, query data = query' (view data)) :
    Simulated view T (Session.read server closed fate query)
      (Session.read server' closed fate query') := by
  intro s
  have hlog : (Session.read server closed fate query s).2.log = s.log := by
    unfold Session.read
    split
    · rfl
    · cases fate with
      | sent => cases s.status <;> rfl
      | _ => rfl
  refine ⟨by rw [hlog], s.fate, fun p hmatches _ => ?_⟩
  have hstatus := hmatches.status
  unfold Session.read
  by_cases hc : s.connected = false
  · rw [if_pos hc, if_pos (hmatches.connected.trans hc)]
    exact ⟨rfl, hmatches, rfl⟩
  · rw [if_neg hc, if_neg (hmatches.connected ▸ hc)]
    cases fate with
    | sent =>
        cases hs : s.status with
        | idle =>
            rw [hs] at hstatus
            simp only [hstatus, TxStatus.map, hmatches.committed, hquery]
            exact ⟨trivial, hmatches, trivial⟩
        | inProgress working =>
            rw [hs] at hstatus
            simp only [hstatus, TxStatus.map, hquery]
            exact ⟨trivial, hmatches, trivial⟩
        | failed =>
            rw [hs] at hstatus
            simp only [hstatus, TxStatus.map, hrelaxes.error]
            exact ⟨trivial, hmatches, trivial⟩
    | unsent m =>
        simp only [hrelaxes.error]
        exact ⟨trivial, hmatches, trivial⟩
    | refused m c =>
        simp only [hrelaxes.error]
        refine ⟨trivial, ⟨hmatches.committed, ?_, hmatches.connected, hmatches.log⟩, trivial⟩
        simp only [hstatus]
        cases s.status <;> rfl
    | lost m | unanswered m =>
        simp only [hrelaxes.error]
        exact ⟨trivial, hmatches.close, rfl⟩

end Transaction

end Session

end FinCore.Sql

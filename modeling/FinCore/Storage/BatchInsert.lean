/-
  FinCore.Storage.BatchInsert
  ───────────────────────────
  The batch inserts are all or nothing, and count what they insert.

  A batch call is one transaction.  `insertRecords_ok` follows its loop when
  every statement is accepted, and `insertRecords_sent` makes it return when
  none of them fails; `insertBatch_outcome` puts the call together for every
  state of the session and every fate of every statement.  A run of calls on a
  fresh connection finds it idle before each call unless a ROLLBACK has been
  refused.
-/
import FinCore.Sql.Batch
import FinCore.Storage.PostgresRepository

namespace FinCore.Storage

open FinCore.Cxx FinCore.Sql FinCore.Domain
open Session Action

section Batch

variable {R : Type} (platform : Platform) (kind : BatchKind R)

/-! ## §1. Validation. -/

theorem validateAll_ok_iff (records : List R) :
    validateAll kind records = .ok () ↔ ∀ r ∈ records, kind.validate r = .ok () := by
  induction records with
  | nil => simp [validateAll]
  | cons r rest ih =>
      rw [validateAll, List.forall_mem_cons, ← ih]
      cases kind.validate r with
      | error e => simp [bind, Except.bind]
      | ok u => simp [bind, Except.bind]

/-- A record that fails validation stops the call before its first
statement. -/
theorem insertBatch_invalid {records : List R} {e : Exn}
    (h : validateAll kind records = .error e) (s : PgSession) :
    insertBatch platform kind records s = (.error e, s) := by
  unfold insertBatch
  rw [h]
  exact Action.bind_error rfl

/-! ## §2. The loop. -/

/-- The statement a record is sent as. -/
def preparedOf (record : R) : Except Exn Prepared :=
  (kind.parameters platform record).map
    (fun parameters => ⟨kind.statement, parameters.map (Option.map cStr)⟩)

/-- The conflict key of the rows of a batch. -/
def rowKey : Row → Option (List Datum) := kind.statement.key

/-- Every record converts, to the statements in order. -/
def Prepares : List R → List Prepared → Prop :=
  List.Forall₂ (fun record q => preparedOf platform kind record = .ok q)

/-- The server casts the parameters of every statement, to the rows in order. -/
def Casts : List Prepared → List Row → Prop :=
  List.Forall₂ (fun q row => q.row platform = some row)

/-- When every statement of the loop is accepted, the block's table has gained
what the rows add, and the count is the number of rows gained. -/
theorem insertRecords_ok (records : List R) :
    ∀ {inserted m : ℕ} {s t : PgSession} {working : Db},
      insertRecords platform kind records inserted s = (.ok m, t) →
      s.status = .inProgress working →
      ∃ queries rows, Prepares platform kind records queries ∧ Casts platform queries rows
        ∧ t.status = .inProgress (Function.update working kind.statement.table
            (insertAll (rowKey kind) rows (working kind.statement.table, inserted)).1)
        ∧ m = (insertAll (rowKey kind) rows (working kind.statement.table, inserted)).2
        ∧ t.log = s.log ++ queries.map (fun q => (.query q, true)) := by
  induction records with
  | nil =>
      intro inserted m s t working hrun hs
      rw [insertRecords, Action.pure_run, Prod.mk.injEq] at hrun
      obtain ⟨hm, rfl⟩ := hrun
      injection hm with hm
      exact ⟨[], [], .nil, .nil, by simp [insertAll, hs], by simp [insertAll, hm], by simp⟩
  | cons record rest ih =>
      intro inserted m s t working hrun hs
      rw [insertRecords] at hrun
      obtain ⟨parameters, s₀, hparams, hrun⟩ := Action.bind_eq_ok hrun
      rw [Action.ofExcept_run, Prod.mk.injEq] at hparams
      obtain ⟨hparams, rfl⟩ := hparams
      obtain ⟨affected, s₁, hquery, hrun⟩ := Action.bind_eq_ok hrun
      set q : Prepared := ⟨kind.statement, parameters.map (Option.map cStr)⟩ with hq
      have hprepared : preparedOf platform kind record = .ok q := by
        rw [preparedOf, hparams]
        rfl
      obtain ⟨working₁, hexec, rfl⟩ := query_ok hquery hs
      -- the server has cast the parameters and inserted the row
      obtain ⟨row, hrow, hworking, haffected⟩ : ∃ row, q.row platform = some row
          ∧ working₁ = Function.update working kind.statement.table
            (insertDoNothing (rowKey kind) row (working kind.statement.table)).1
          ∧ affected = (insertDoNothing (rowKey kind) row (working kind.statement.table)).2 := by
        unfold pgServer at hexec
        dsimp only at hexec
        cases hr : q.row platform with
        | none =>
            rw [hr] at hexec
            cases hexec
        | some row =>
            rw [hr] at hexec
            injection hexec with hexec
            rw [Prod.mk.injEq] at hexec
            exact ⟨row, rfl, hexec.1.symm, hexec.2.symm⟩
      obtain ⟨queries, rows, hqueries, hrows, ht, hm, hlog⟩ := ih hrun rfl
      refine ⟨q :: queries, row :: rows, .cons hprepared hqueries, .cons hrow hrows, ?_, ?_, ?_⟩
      · rw [ht, hworking, Function.update_self, Function.update_idem, haffected]
        rfl
      · rw [hm, hworking, Function.update_self, haffected]
        rfl
      · rw [hlog, note, List.append_assoc]
        rfl

/-- A statement whose parameters can be cast inserts its row. -/
theorem pgServer_exec {q : Prepared} {row : Row} (h : q.row platform = some row) (db : Db) :
    (pgServer platform).exec q db
      = .ok (Function.update db q.statement.table
          (insertDoNothing q.statement.key row (db q.statement.table)).1,
        (insertDoNothing q.statement.key row (db q.statement.table)).2) := by
  simp only [pgServer, h]

/-- **Records that convert, in statements that the server takes, go through the
loop.** -/
theorem insertRecords_sent {records : List R} {queries : List Prepared}
    (hqueries : Prepares platform kind records queries) :
    ∀ {rows : List Row}, Casts platform queries rows →
      ∀ (inserted n : ℕ) {s : PgSession} {working : Db}, Reaches s (records.length + n) →
        s.status = .inProgress working →
        ∃ m t after, insertRecords platform kind records inserted s = (.ok m, t) ∧ Reaches t n
          ∧ t.status = .inProgress after := by
  induction hqueries with
  | nil =>
      intro rows _ inserted n s working hs hstatus
      rw [List.length_nil, Nat.zero_add] at hs
      exact ⟨inserted, s, working, rfl, hs, hstatus⟩
  | @cons record q rest queries hq _ ih =>
      intro rows hrows inserted n s working hs hstatus
      obtain ⟨row, rows, hrow, hrest, rfl⟩ := List.forall₂_cons_left_iff.mp hrows
      have hreaches : Reaches s (rest.length + n + 1) := by
        rw [List.length_cons, Nat.add_right_comm] at hs
        exact hs
      obtain ⟨parameters, hparameters, rfl⟩ : ∃ parameters,
          kind.parameters platform record = .ok parameters
          ∧ q = ⟨kind.statement, parameters.map (Option.map cStr)⟩ := by
        unfold preparedOf at hq
        cases hparameters : kind.parameters platform record with
        | error e =>
            rw [hparameters] at hq
            cases hq
        | ok parameters =>
            rw [hparameters] at hq
            exact ⟨parameters, rfl, (Except.ok.inj hq).symm⟩
      -- the server takes the row, and the next record finds the block open
      set q : Prepared := ⟨kind.statement, parameters.map (Option.map cStr)⟩
      have hexec := pgServer_exec platform hrow working
      have hissue := hreaches.issue (pgServer platform) (.query q)
      simp only [execute, hstatus, hexec] at hissue
      obtain ⟨m, t, after, hrun, ht, hafter⟩ :=
        ih hrest _ n (hreaches.noted _ _ _ _) rfl
      refine ⟨m, t, after, ?_, ht, hafter⟩
      rw [insertRecords, Action.bind_ok (by rw [hparameters]; rfl)]
      exact (Action.bind_ok hissue).trans hrun

/-- The loop stays within what every query stays within. -/
theorem insertRecords_within {Rel : PgSession → PgSession → Prop} [IsPreorder PgSession Rel]
    (hquery : ∀ q, Within Rel (issue (pgServer platform) (.query q))) (records : List R) :
    ∀ inserted, Within Rel (insertRecords platform kind records inserted) := by
  induction records with
  | nil => exact fun inserted => Within.pure inserted
  | cons record rest ih =>
      intro inserted
      refine Within.bind (Within.ofExcept _) (fun parameters => ?_)
      exact Within.bind (hquery _) (fun affected => ih _)

/-! ## §3. One call. -/

/-- What a batch call does, for every state of the session and every fate of its
statements. -/
structure BatchOutcome (records : List R) (s : PgSession) (result : Except Exn InsertSummary)
    (t : PgSession) : Prop where
  /-- An invalid record: no statement is issued and the call throws. -/
  invalid : (∃ r ∈ records, kind.validate r ≠ .ok ()) → (∃ e, result = .error e) ∧ t = s
  /-- A call that throws leaves every table as it was, where a COMMIT that fails
  applies nothing. -/
  failed : ∀ e, result = .error e → CommitsAnswered t → t.committed = s.committed
  /-- Valid records that convert, and statements that are accepted: the call
  returns. -/
  returns : ∀ queries rows, (∀ r ∈ records, kind.validate r = .ok ()) →
    Prepares platform kind records queries → Casts platform queries rows →
    s.status ≠ .failed → Reaches s (records.length + 2) → ∃ summary, result = .ok summary
  /-- A call that returns has had every record validated and converted and every
  statement accepted; the table has gained the first record of every key not yet
  present, and the summary counts them. -/
  done : ∀ summary, result = .ok summary → ∃ queries rows,
    (∀ r ∈ records, kind.validate r = .ok ())
    ∧ Prepares platform kind records queries
    ∧ Casts platform queries rows
    ∧ t.log = s.log ++ (if records = [] then [] else
        (.begin, true) :: queries.map (fun q => (.query q, true)) ++ [(.commit, true)])
    ∧ t.status = (if records = [] then s.status else .idle)
    ∧ t.visible = Function.update s.visible kind.statement.table
        (s.visible kind.statement.table
          ++ gained (rowKey kind) (s.visible kind.statement.table) rows)
    ∧ summary.attempted = records.length
    ∧ summary.inserted
      = (gained (rowKey kind) (s.visible kind.statement.table) rows).length
    ∧ summary.inserted ≤ summary.attempted
    ∧ summary.duplicates + summary.inserted = records.length
  /-- No transaction is left open, unless the last statement was a ROLLBACK that
  failed. -/
  ended : s.status = .idle →
    t.status = .idle ∨ ∃ between, t.log = s.log ++ between ++ [(.rollback, false)]

/-- Valid records go straight to the transaction, if there are any. -/
theorem insertBatch_valid {records : List R} (h : validateAll kind records = .ok ())
    (s : PgSession) :
    insertBatch platform kind records s
      = (if records = [] then pure { attempted := records.length, inserted := 0 }
        else do
          let inserted ← transaction (pgServer platform) (insertRecords platform kind records 0)
          return { attempted := records.length, inserted := inserted } :
        Action PgSession Exn InsertSummary) s := by
  unfold insertBatch
  exact Action.bind_ok (by rw [h]; rfl)

section Outcomes

variable {platform kind} {records : List R} {s t : PgSession}

/-- A call that throws on valid records. -/
theorem BatchOutcome.thrown (e : Exn) (hall : ∀ r ∈ records, kind.validate r = .ok ())
    (hreturns : ∀ queries rows, Prepares platform kind records queries →
      Casts platform queries rows → s.status ≠ .failed → ¬ Reaches s (records.length + 2))
    (h : Unwound s t ∨ t.status = .idle ∧ ¬ CommitsAnswered t) :
    BatchOutcome platform kind records s (.error e) t where
  invalid := fun ⟨r, hr, hne⟩ => absurd (hall r hr) hne
  failed := by
    intro _ _ hanswered
    rcases h with hunwound | ⟨_, hunanswered⟩
    · exact hunwound.committed
    · exact absurd hanswered hunanswered
  returns := fun queries rows _ hqueries hrows hs hreaches =>
    absurd hreaches (hreturns queries rows hqueries hrows hs)
  done := by
    intro summary hsummary
    cases hsummary
  ended := by
    intro hs
    rcases h with hunwound | ⟨hidle, _⟩
    · exact hunwound.ended hs
    · exact Or.inl hidle

/-- A call without records. -/
theorem BatchOutcome.empty (s : PgSession) :
    BatchOutcome platform kind [] s (.ok { attempted := 0, inserted := 0 }) s where
  invalid := fun ⟨_, hr, _⟩ => absurd hr List.not_mem_nil
  failed := by
    intro e he
    cases he
  returns := fun _ _ _ _ _ _ _ => ⟨_, rfl⟩
  done := by
    intro summary hsummary
    injection hsummary with hsummary
    subst hsummary
    exact ⟨[], [], fun _ hr => absurd hr List.not_mem_nil, .nil, .nil, by simp, by simp,
      by simp [gained], rfl, rfl, le_refl _, rfl⟩
  ended := Or.inl

/-- A call whose statements have all been accepted. -/
theorem BatchOutcome.committed {s₂ : PgSession} {inserted n : ℕ} (hnil : records ≠ [])
    (hall : ∀ r ∈ records, kind.validate r = .ok ())
    (hbody : insertRecords platform kind records 0
        (({ s with status := .inProgress s.visible } : PgSession).note .begin true)
      = (.ok inserted, s₂))
    (hcommit : issue (pgServer platform) .commit s₂ = (.ok n, t)) :
    BatchOutcome platform kind records s
      (.ok { attempted := records.length, inserted := inserted }) t := by
  obtain ⟨queries, rows, hqueries, hrows, hs₂, hcount, hlog₂⟩ :=
    insertRecords_ok platform kind records hbody rfl
  -- the COMMIT keeps what the statements added
  obtain ⟨hcommitted, hidle, hlog⟩ := commit_ok hcommit hs₂
  rw [insertAll_eq] at hcommitted hcount
  have hle : inserted ≤ records.length := by
    have hgained := gained_length_le (rowKey kind) rows (s.visible kind.statement.table)
    have hlength : rows.length = records.length := by
      rw [← hrows.length_eq, ← hqueries.length_eq]
    omega
  refine ⟨fun ⟨r, hr, hne⟩ => absurd (hall r hr) hne, ?_, fun _ _ _ _ _ _ _ => ⟨_, rfl⟩, ?_,
    fun _ => Or.inl hidle⟩
  · intro e he
    cases he
  · intro summary hsummary
    injection hsummary with hsummary
    subst hsummary
    refine ⟨queries, rows, hall, hqueries, hrows, ?_, ?_, ?_, rfl, ?_, hle, ?_⟩
    · rw [hlog, hlog₂, if_neg hnil, note]
      simp
    · rw [if_neg hnil]
      exact hidle
    · rw [visible_idle hidle]
      exact hcommitted
    · rw [hcount]
      simp
    · unfold InsertSummary.duplicates
      simp only [if_pos hle]
      omega

end Outcomes

/-- The transaction of records that convert returns when its statements are
accepted. -/
theorem insertTransaction_returns {records : List R} {queries : List Prepared} {rows : List Row}
    (hqueries : Prepares platform kind records queries) (hrows : Casts platform queries rows)
    {s : PgSession} (hs : s.status ≠ .failed) (hreaches : Reaches s (records.length + 2)) :
    ∃ m t,
      transaction (pgServer platform) (insertRecords platform kind records 0) s = (.ok m, t) := by
  refine hreaches.transaction hs (pgServer platform) ?_
  intro t working ht hworking
  exact insertRecords_sent platform kind hqueries hrows 0 1 ht hworking

/-- **A batch insert is all or nothing.** -/
theorem insertBatch_outcome (records : List R) (s : PgSession) :
    BatchOutcome platform kind records s (insertBatch platform kind records s).1
      (insertBatch platform kind records s).2 := by
  cases hvalid : validateAll kind records with
  | error e =>
      -- no statement has been issued yet
      have hnot : ¬ ∀ r ∈ records, kind.validate r = .ok () := by
        rw [← validateAll_ok_iff, hvalid]
        exact nofun
      rw [insertBatch_invalid platform kind hvalid]
      exact ⟨fun _ => ⟨⟨e, rfl⟩, rfl⟩, fun _ _ _ => rfl, fun _ _ hall => absurd hall hnot,
        (by intro _ h; cases h), Or.inl⟩
  | ok u =>
      have hall := (validateAll_ok_iff kind records).mp hvalid
      rw [insertBatch_valid platform kind hvalid]
      by_cases hnil : records = []
      · subst hnil
        exact .empty s
      · rw [if_neg hnil]
        -- a transaction that has thrown has not had all its statements accepted
        have hreturns : ∀ {e : Exn} {t : PgSession},
            transaction (pgServer platform) (insertRecords platform kind records 0) s
              = (.error e, t) →
            ∀ queries rows, Prepares platform kind records queries →
              Casts platform queries rows → s.status ≠ .failed →
              ¬ Reaches s (records.length + 2) := by
          intro e t ht queries rows hqueries hrows hs hreaches
          obtain ⟨m, t', ht'⟩ :=
            insertTransaction_returns platform kind hqueries hrows hs hreaches
          rw [ht] at ht'
          cases ht'
        rcases transaction_cases (pgServer platform) (insertRecords platform kind records 0)
            (insertRecords_within platform kind (Blocked.query _ _) records 0)
            (insertRecords_within platform kind (fun q => Grows.issue _ (.query q)) records 0)
          with
          ⟨e, t, ht, hunwound⟩ | ⟨inserted, s₁, s₂, t, n, _, hs₁, hbody, hcommit, ht⟩
          | ⟨e, inserted, s₁, s₂, t, _, _, hunanswered, ht⟩
        · rw [Action.bind_error ht]
          exact .thrown e hall (hreturns ht) (Or.inl hunwound)
        · rw [Action.bind_ok ht]
          subst hs₁
          exact .committed hnil hall hbody hcommit
        · rw [Action.bind_error ht]
          exact .thrown e hall (hreturns ht)
            (Or.inr ⟨hunanswered.status, hunanswered.not_commitsAnswered⟩)

/-- A call that returns has added, to the data it saw, what its rows add. -/
theorem insertBatch_ok {records : List R} (hnil : records ≠ []) {s t : PgSession}
    {summary : InsertSummary} (h : insertBatch platform kind records s = (.ok summary, t)) :
    (∀ r ∈ records, kind.validate r = .ok ()) ∧ ∃ queries rows,
      Prepares platform kind records queries ∧ Casts platform queries rows
      ∧ t.committed = Function.update s.visible kind.statement.table
          (s.visible kind.statement.table
            ++ gained (rowKey kind) (s.visible kind.statement.table) rows)
      ∧ t.status = .idle := by
  have houtcome := insertBatch_outcome platform kind records s
  rw [h] at houtcome
  obtain ⟨queries, rows, hall, hqueries, hrows, _, hstatus, hvisible, _⟩ :=
    houtcome.done summary rfl
  rw [if_neg hnil] at hstatus
  rw [visible_idle hstatus] at hvisible
  exact ⟨hall, queries, rows, hqueries, hrows, hvisible, hstatus⟩

/-- A call that returns on an idle connection has added to the committed data. -/
theorem BatchOutcome.gains {records : List R} {s t : PgSession}
    {result : Except Exn InsertSummary} (h : BatchOutcome platform kind records s result t)
    (hs : s.status = .idle) {summary : InsertSummary} (hresult : result = .ok summary) :
    ∃ queries rows, (∀ r ∈ records, kind.validate r = .ok ())
      ∧ Prepares platform kind records queries ∧ Casts platform queries rows
      ∧ t.committed = Function.update s.committed kind.statement.table
          (s.committed kind.statement.table
            ++ gained (rowKey kind) (s.committed kind.statement.table) rows) := by
  obtain ⟨queries, rows, hall, hqueries, hrows, _, hstatus, hvisible, _⟩ := h.done summary hresult
  rw [hs, ite_self] at hstatus
  rw [visible_idle hs, visible_idle hstatus] at hvisible
  exact ⟨queries, rows, hall, hqueries, hrows, hvisible⟩

/-- A call stays within what every statement stays within. -/
theorem insertBatch_within {Rel : PgSession → PgSession → Prop} [IsPreorder PgSession Rel]
    (hissue : ∀ statement, Within Rel (issue (pgServer platform) statement)) (records : List R) :
    Within Rel (insertBatch platform kind records) := by
  refine Within.bind (Within.ofExcept _) (fun _ => ?_)
  by_cases hnil : records = []
  · rw [if_pos hnil]
    exact Within.pure _
  · rw [if_neg hnil]
    refine Within.bind (transaction_within hissue ?_) (fun _ => Within.pure _)
    exact insertRecords_within platform kind (fun q => hissue (.query q)) records 0

end Batch

/-! ## §4. Ticks. -/

theorem Cast.apply_eq_null_iff {platform : Platform} {cast : Cast} {value : Option Str} :
    cast.apply platform value = some .null ↔ value = none := by
  cases value with
  | none => simp [Cast.apply]
  | some s => cases cast <;> simp [Cast.apply]

/-- The statement of a tick whose time stamp converts. -/
theorem preparedOf_tick {platform : Platform} {tick : Tick} {timestamp : Str}
    (htime : timestampToUtcText platform tick.timestamp = .ok timestamp) :
    preparedOf platform tickBatch tick = .ok ⟨fincoreInsertTick,
      [some (cStr tick.symbol), some (cStr tick.source), some (cStr timestamp),
        tick.tradeId.map cStr, some (cStr tick.price.toString), some (cStr tick.size.toString),
        some (cStr [tick.side.toChar])]⟩ := by
  show (timestampToUtcText platform tick.timestamp >>= _).map _ = _
  rw [htime]
  rfl

/-- A tick's row has a conflict key exactly if the tick has a trade id. -/
theorem tick_key_isNone {platform : Platform} {tick : Tick} {q : Prepared} {row : Row}
    (hq : preparedOf platform tickBatch tick = .ok q) (hrow : q.row platform = some row) :
    (rowKey tickBatch row).isNone = tick.tradeId.isNone := by
  cases htime : timestampToUtcText platform tick.timestamp with
  | error e =>
      -- an instant that has no text is never sent
      have hthrow : preparedOf platform tickBatch tick = .error e := by
        show (timestampToUtcText platform tick.timestamp >>= _).map _ = _
        rw [htime]
        rfl
      rw [hthrow] at hq
      cases hq
  | ok timestamp =>
      rw [preparedOf_tick htime] at hq
      have hq := Except.ok.inj hq
      have htrade : Cast.text.apply platform (tick.tradeId.map cStr)
          = some (row.getD 3 .null) := by
        rw [← hq] at hrow
        exact Prepared.row_column hrow rfl rfl
      -- the fourth column is NULL as the trade id is absent
      have hnull : row.getD 3 .null = .null ↔ tick.tradeId = none := by
        constructor
        · intro h
          rw [h, Cast.apply_eq_null_iff, Option.map_eq_none_iff] at htrade
          exact htrade
        · intro h
          rw [h] at htrade
          exact (Option.some.inj htrade).symm
      show (if row.getD 3 .null = .null then none else some _ : Option (List Datum)).isNone = _
      by_cases h : row.getD 3 .null = .null
      · rw [if_pos h, hnull.mp h]
        rfl
      · rw [if_neg h, Option.isNone_some]
        cases ht : tick.tradeId with
        | none => exact absurd (hnull.mpr ht) h
        | some id => rfl

/-- **A tick without a trade id always gains a row.** -/
theorem insertTicks_unkeyed (platform : Platform) {ticks : List Tick} {s t : PgSession}
    {result : Except Exn InsertSummary} (h : BatchOutcome platform tickBatch ticks s result t)
    {summary : InsertSummary} (hresult : result = .ok summary) :
    (t.visible .ticks).countP (fun row => (rowKey tickBatch row).isNone)
      = (s.visible .ticks).countP (fun row => (rowKey tickBatch row).isNone)
        + ticks.countP (fun tick => tick.tradeId.isNone) := by
  obtain ⟨queries, rows, -, hqueries, hrows, -, -, hvisible, -⟩ := h.done summary hresult
  have hcount : rows.countP (fun row => (rowKey tickBatch row).isNone)
      = ticks.countP (fun tick => tick.tradeId.isNone) := by
    clear hvisible h
    induction hqueries generalizing rows with
    | nil =>
        cases hrows
        rfl
    | cons hq _ ih =>
        cases hrows with
        | cons hrow hrest =>
            rw [List.countP_cons, List.countP_cons, ih _ hrest, tick_key_isNone hq hrow]
  have htable : t.visible .ticks
      = s.visible .ticks ++ gained (rowKey tickBatch) (s.visible .ticks) rows := by
    rw [hvisible]
    exact Function.update_self _ _ _
  -- a row without a key conflicts with none
  rw [htable, List.countP_append, gained_countP_isNone, hcount]

/-! ## §5. Runs of calls. -/

/-- A call of one of the four batch methods. -/
inductive BatchCall where
  | insertQuotes (quotes : List Domain.Quote)
  | insertTicks (ticks : List Tick)
  | insertOrderBookSnapshots (snapshots : List Domain.OrderBookSnapshot)
  | insertTechnicalIndicators (indicators : List TechnicalIndicator)

namespace BatchCall

def perform (platform : Platform) : BatchCall → Action PgSession Exn InsertSummary
  | insertQuotes quotes => Storage.insertQuotes platform quotes
  | insertTicks ticks => Storage.insertTicks platform ticks
  | insertOrderBookSnapshots snapshots => Storage.insertOrderBookSnapshots platform snapshots
  | insertTechnicalIndicators indicators => Storage.insertTechnicalIndicators platform indicators

/-- What the call did, from its result and the session it left. -/
def Outcome (platform : Platform) (call : BatchCall) (s : PgSession)
    (result : Except Exn InsertSummary) (t : PgSession) : Prop :=
  match call with
  | insertQuotes quotes => BatchOutcome platform quoteBatch quotes s result t
  | insertTicks ticks =>
      BatchOutcome platform tickBatch ticks s result t
      ∧ ∀ summary, result = .ok summary →
        (t.visible .ticks).countP (fun row => (rowKey tickBatch row).isNone)
          = (s.visible .ticks).countP (fun row => (rowKey tickBatch row).isNone)
            + ticks.countP (fun tick => tick.tradeId.isNone)
  | insertOrderBookSnapshots snapshots => BatchOutcome platform snapshotBatch snapshots s result t
  | insertTechnicalIndicators indicators =>
      BatchOutcome platform indicatorBatch indicators s result t

end BatchCall

/-- A connection as `PQconnectdb` hands it over. -/
def openSession (db : Db) (fate : ℕ → Fate) : PgSession where
  committed := db
  status := .idle
  connected := true
  log := []
  fate := fate

/-- The session after a run of calls; the caller may catch what they throw. -/
def runBatches (platform : Platform) : List BatchCall → PgSession → PgSession
  | [], s => s
  | call :: rest, s => runBatches platform rest (call.perform platform s).2

/-- No ROLLBACK of the session has failed. -/
def RollbacksAccepted (s : PgSession) : Prop := (.rollback, false) ∉ s.log

instance (s : PgSession) : Decidable (RollbacksAccepted s) :=
  inferInstanceAs (Decidable (_ ∉ s.log))

theorem RollbacksAccepted.of_prefix {s t : PgSession} (hlog : s.log <+: t.log)
    (h : RollbacksAccepted t) : RollbacksAccepted s :=
  fun hmem => h (hlog.subset hmem)

section Run

variable (platform : Platform)

/-- A call stays within what every statement stays within. -/
theorem BatchCall.perform_within {Rel : PgSession → PgSession → Prop} [IsPreorder PgSession Rel]
    (hissue : ∀ statement, Within Rel (issue (pgServer platform) statement)) (call : BatchCall) :
    Within Rel (call.perform platform) := by
  cases call with
  | insertQuotes quotes => exact insertBatch_within platform quoteBatch hissue quotes
  | insertTicks ticks => exact insertBatch_within platform tickBatch hissue ticks
  | insertOrderBookSnapshots snapshots =>
      exact insertBatch_within platform snapshotBatch hissue snapshots
  | insertTechnicalIndicators indicators =>
      exact insertBatch_within platform indicatorBatch hissue indicators

theorem BatchCall.perform_fate (call : BatchCall) :
    Within (Same Session.fate) (call.perform platform) :=
  call.perform_within platform (issue_fate (pgServer platform))

/-- **What a batch call does**, from any state of the session. -/
theorem BatchCall.perform_outcome (call : BatchCall) (s : PgSession) :
    call.Outcome platform s (call.perform platform s).1 (call.perform platform s).2 := by
  cases call with
  | insertQuotes quotes => exact insertBatch_outcome platform quoteBatch quotes s
  | insertTicks ticks =>
      have houtcome := insertBatch_outcome platform tickBatch ticks s
      exact ⟨houtcome, fun summary hresult => insertTicks_unkeyed platform houtcome hresult⟩
  | insertOrderBookSnapshots snapshots =>
      exact insertBatch_outcome platform snapshotBatch snapshots s
  | insertTechnicalIndicators indicators =>
      exact insertBatch_outcome platform indicatorBatch indicators s

/-- A call on an idle connection leaves it idle unless its ROLLBACK fails. -/
theorem BatchCall.Outcome.idle {call : BatchCall} {s t : PgSession}
    {result : Except Exn InsertSummary} (h : call.Outcome platform s result t)
    (hs : s.status = .idle) (hrollbacks : RollbacksAccepted t) : t.status = .idle := by
  have hended : t.status = .idle ∨ ∃ between, t.log = s.log ++ between ++ [(.rollback, false)] := by
    cases call with
    | insertQuotes quotes => exact h.ended hs
    | insertTicks ticks => exact h.1.ended hs
    | insertOrderBookSnapshots snapshots => exact h.ended hs
    | insertTechnicalIndicators indicators => exact h.ended hs
  rcases hended with hidle | ⟨between, hlog⟩
  · exact hidle
  · refine absurd ?_ hrollbacks
    rw [hlog]
    exact List.mem_append_right _ (List.mem_singleton.mpr rfl)

/-- What every statement stays within, a run of calls does. -/
theorem runBatches_within {Rel : PgSession → PgSession → Prop} [IsPreorder PgSession Rel]
    (hissue : ∀ statement, Within Rel (issue (pgServer platform) statement))
    (calls : List BatchCall) : ∀ s, Rel s (runBatches platform calls s) := by
  induction calls with
  | nil => exact fun s => refl_of Rel s
  | cons call rest ih =>
      intro s
      exact trans_of Rel (call.perform_within platform hissue s) (ih _)

theorem runBatches_grows (calls : List BatchCall) (s : PgSession) :
    LogGrows s (runBatches platform calls s) :=
  runBatches_within platform (Grows.issue (pgServer platform)) calls s

theorem runBatches_fate (calls : List BatchCall) (s : PgSession) :
    Same Session.fate s (runBatches platform calls s) :=
  runBatches_within platform (issue_fate (pgServer platform)) calls s

/-- While no ROLLBACK fails, every call finds the connection idle. -/
theorem runBatches_idle (calls : List BatchCall) :
    ∀ s : PgSession, s.status = .idle → RollbacksAccepted (runBatches platform calls s) →
      (runBatches platform calls s).status = .idle := by
  induction calls with
  | nil => exact fun s hs _ => hs
  | cons call rest ih =>
      intro s hs hrollbacks
      have hmid : RollbacksAccepted (call.perform platform s).2 :=
        hrollbacks.of_prefix (runBatches_grows platform rest _)
      exact ih _ ((call.perform_outcome platform s).idle platform hs hmid) hrollbacks

/-- A connection that is still open after a run has had every statement
answered. -/
theorem runBatches_answered (calls : List BatchCall) (db : Db) (fate : ℕ → Fate)
    (h : (runBatches platform calls (openSession db fate)).connected = true) :
    Answered (runBatches platform calls (openSession db fate)) := by
  have hpreserves : Preserves AnsweredWhileOpen (openSession db fate)
      (runBatches platform calls (openSession db fate)) :=
    runBatches_within platform (issue_answers (pgServer platform)) calls (openSession db fate)
  exact hpreserves (fun _ n hn => absurd hn (Nat.not_lt_zero n)) h

/-- **Every batch insert is all or nothing and correctly counted**, after any
run of calls on a fresh connection, for every table content and every fate of
every statement; and no transaction is left open while no ROLLBACK fails, so
that what the call saw and left is the committed data. -/
theorem batch_all_or_nothing (db : Db) (fate : ℕ → Fate) (calls : List BatchCall)
    (call : BatchCall) {s : PgSession}
    (hs : s = runBatches platform calls (openSession db fate)) :
    call.Outcome platform s (call.perform platform s).1 (call.perform platform s).2
    ∧ (RollbacksAccepted s → s.status = .idle ∧ s.visible = s.committed)
    ∧ (RollbacksAccepted (call.perform platform s).2 →
        (call.perform platform s).2.status = .idle
        ∧ (call.perform platform s).2.visible = (call.perform platform s).2.committed) := by
  have hidle : RollbacksAccepted s → s.status = .idle := by
    intro hrollbacks
    rw [hs] at hrollbacks ⊢
    exact runBatches_idle platform calls (openSession db fate) rfl hrollbacks
  have houtcome := call.perform_outcome platform s
  refine ⟨houtcome, fun hrollbacks => ⟨hidle hrollbacks, visible_idle (hidle hrollbacks)⟩, ?_⟩
  intro hrollbacks
  have hbefore : RollbacksAccepted s :=
    hrollbacks.of_prefix (call.perform_within platform (Grows.issue (pgServer platform)) s)
  have hafter := houtcome.idle platform (hidle hbefore) hrollbacks
  exact ⟨hafter, visible_idle hafter⟩

end Run

/-- Two trades of one tick feed, the first with an id. -/
def sampleTicks : List Tick :=
  [⟨"IBM".toList, "FEED".toList, 0, some "t1".toList, ⟨100⟩, ⟨1⟩, .bid⟩,
    ⟨"IBM".toList, "FEED".toList, 0, none, ⟨100⟩, ⟨1⟩, .ask⟩]

/-- A server that reads every time stamp as the epoch. -/
def samplePlatform : Platform where
  timestamptz := fun _ => some 0
  jsonb := some
  utcText := fun _ => some "1970-01-01T00:00:00".toList

/-- A session that refuses the COMMIT of its second call. -/
def sampleFate : ℕ → Fate := fun n => if n = 7 then .refused "could not commit".toList [] else .sent

/-- The third call inserts the tick without an id once more. -/
theorem batch_all_or_nothing_sampleTicks :
    ∃ s, s = runBatches samplePlatform [.insertTicks sampleTicks, .insertTicks sampleTicks]
        (openSession (fun _ => []) sampleFate)
    ∧ (s.committed .ticks).length = 2
    ∧ (BatchCall.insertTicks sampleTicks).Outcome samplePlatform s
        ((BatchCall.insertTicks sampleTicks).perform samplePlatform s).1
        ((BatchCall.insertTicks sampleTicks).perform samplePlatform s).2
    ∧ (((BatchCall.insertTicks sampleTicks).perform samplePlatform s).2.visible .ticks).length
      = 3 :=
  ⟨_, rfl, by decide +kernel,
    (batch_all_or_nothing samplePlatform (fun _ => []) sampleFate
      [.insertTicks sampleTicks, .insertTicks sampleTicks] (.insertTicks sampleTicks) rfl).1,
    by decide +kernel⟩

end FinCore.Storage

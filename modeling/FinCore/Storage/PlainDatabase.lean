/-
  FinCore.Storage.PlainDatabase
  ─────────────────────────────
  The schema refines the server of the casts and the conflict keys.

  Whatever the types, the constraints and the foreign keys of the schema refuse,
  the plain server may have refused: every run of batch calls and queries on the
  database of `migration/schema.sql` is a run on the plain server for some fates
  of the statements, with the same results and the same rows
  (`schema_refines_plain`).  What is proved of the plain server for every fate
  holds with the schema.
-/
import FinCore.Sql.Simulation
import FinCore.Storage.StoredRows

namespace FinCore.Storage

open FinCore.Cxx FinCore.Sql FinCore.Domain
open Session

/-! ## §1. The prepared inserts. -/

section Plain

variable (platform : Platform)

/-- A statement of the schema's server and the insert that it is. -/
def SameInsert (statement : WriteStatement) (q : Prepared) : Prop :=
  statement = .insert q ∧ Plain platform q

/-- The records of the kind are sent by inserts that the table takes whole. -/
def SendsPlain {R : Type} (kind : BatchKind R) : Prop :=
  ∀ record q, kind.validate record = .ok () → preparedOf platform kind record = .ok q →
    Plain platform q

/-- The target and the table settle it, as every record of a kind is sent by the
same statement. -/
theorem SendsPlain.of_takesWhole {R : Type} {kind : BatchKind R}
    (htargets : Targets (insertColumns kind.statement.table)
      (fincoreSchema.index kind.statement.table.relation) kind.statement)
    (hwhole : TakesWhole platform kind (insertColumns kind.statement.table)
      (fincoreSchema.table kind.statement.table.relation)) : SendsPlain platform kind := by
  intro record q hvalid hq
  obtain ⟨parameters, _, rfl⟩ := preparedOf_eq_ok_iff.mp hq
  exact ⟨htargets, fun row hrow => hwhole record _ row hvalid hq hrow⟩

theorem quotes_plain : SendsPlain platform quoteBatch :=
  .of_takesWhole platform ⟨.cons rfl (.cons rfl (.cons rfl .nil)), rfl, nofun⟩
    (quotes_takeWhole platform)

theorem ticks_plain : SendsPlain platform tickBatch := by
  refine .of_takesWhole platform ⟨.cons rfl (.cons rfl (.cons rfl .nil)), rfl, ?_⟩
    (ticks_takeWhole platform)
  rintro i ⟨⟩
  exact ⟨TickColumn.tradeId, List.mem_cons_of_mem _ (List.mem_cons_of_mem _ List.mem_cons_self), rfl⟩

theorem snapshots_plain : SendsPlain platform snapshotBatch :=
  .of_takesWhole platform ⟨.cons rfl (.cons rfl (.cons rfl .nil)), rfl, nofun⟩
    (snapshots_takeWhole platform)

theorem indicators_plain : SendsPlain platform indicatorBatch :=
  .of_takesWhole platform
    ⟨.cons rfl (.cons rfl (.cons rfl (.cons rfl (.cons rfl .nil)))), rfl, nofun⟩
    (indicators_takeWhole platform)

/-! ## §2. The two servers. -/

theorem schema_relaxes (refusalText : RefusalText) :
    Relaxes facts (SameInsert platform) (schemaServer platform refusalText) (pgServer platform) where
  exec := by
    rintro _ q ⟨rfl, hplain⟩ database database' n h
    exact facts_insert hplain h
  error := rfl
  closed := by
    rintro _ _ h
    cases h <;> rfl

variable (refusalText : RefusalText)

/-- The loop of a batch, on either server. -/
theorem insertRecordsInto_simulated {R : Type} {kind : BatchKind R}
    (hkind : SendsPlain platform kind) {records : List R}
    (hvalid : ∀ r ∈ records, kind.validate r = .ok ()) :
    ∀ inserted, Simulated facts (SameInsert platform)
      (insertRecordsInto (schemaServer platform refusalText) .insert platform kind records inserted)
      (insertRecordsInto (pgServer platform) id platform kind records inserted) := by
  induction records with
  | nil => exact fun inserted => Simulated.pure inserted
  | cons record rest ih =>
      intro inserted
      refine Simulated.ofExcept_bind (fun parameters hparameters => ?_)
      have hplain := hkind record _ (hvalid record List.mem_cons_self)
        (preparedOf_eq_ok_iff.mpr ⟨parameters, hparameters, rfl⟩)
      refine Simulated.bind (Simulated.issue (schema_relaxes platform refusalText)
        (.query ⟨rfl, hplain⟩)) (fun affected => ?_)
      exact ih (fun r hr => hvalid r (List.mem_cons_of_mem _ hr)) _

/-- **A batch on the schema is a batch on the plain server.** -/
theorem insertFacts_simulated {R : Type} {kind : BatchKind R} (hkind : SendsPlain platform kind)
    (records : List R) :
    Simulated facts (SameInsert platform) (insertFacts platform refusalText kind records)
      (insertBatch platform kind records) := by
  rw [← insertBatchInto_pgServer]
  refine Simulated.ofExcept_bind (fun _ hvalid => ?_)
  by_cases hnil : records = []
  · rw [if_pos hnil, if_pos hnil]
    exact Simulated.pure _
  · rw [if_neg hnil, if_neg hnil]
    refine Simulated.bind (Simulated.transaction (schema_relaxes platform refusalText) ?_)
      (fun inserted => Simulated.pure _)
    exact insertRecordsInto_simulated platform refusalText hkind
      ((validateAll_ok_iff kind records).mp hvalid) 0

theorem BatchCall.perform_simulated (call : BatchCall) :
    Simulated facts (SameInsert platform) (call.performOn platform refusalText)
      (call.perform platform) := by
  cases call with
  | insertQuotes quotes => exact insertFacts_simulated platform refusalText (quotes_plain platform) _
  | insertTicks ticks => exact insertFacts_simulated platform refusalText (ticks_plain platform) _
  | insertOrderBookSnapshots snapshots =>
      exact insertFacts_simulated platform refusalText (snapshots_plain platform) _
  | insertTechnicalIndicators indicators =>
      exact insertFacts_simulated platform refusalText (indicators_plain platform) _

end Plain

/-! ## §3. Runs. -/

/-- `latest_quote` over the database of the schema. -/
def latestQuoteOn (platform : Platform) (refusalText : RefusalText) (fate : Fate)
    (symbol source : Str) : Action DbSession Exn (Option Domain.Quote) := do
  let result ← Session.read (schemaServer platform refusalText) closedError fate
    (fun database => selectLatest (cStr symbol) (cStr source) (facts database))
  match result with
  | none => return none
  | some row => do
      let quote ← Action.ofExcept (quoteOfResult row)
      return some quote

/-- A batch call, or a query with what becomes of it. -/
inductive FactCall where
  | batch (call : BatchCall)
  | latestQuote (fate : Fate) (symbol source : Str)

/-- On the plain server. -/
def FactCall.perform (platform : Platform) :
    FactCall → Action PgSession Exn (InsertSummary ⊕ Option Domain.Quote)
  | batch call => do
      let summary ← call.perform platform
      return .inl summary
  | latestQuote fate symbol source => do
      let quote ← Storage.latestQuote platform fate symbol source
      return .inr quote

/-- On the database of the schema. -/
def FactCall.performOn (platform : Platform) (refusalText : RefusalText) :
    FactCall → Action DbSession Exn (InsertSummary ⊕ Option Domain.Quote)
  | batch call => do
      let summary ← call.performOn platform refusalText
      return .inl summary
  | latestQuote fate symbol source => do
      let quote ← latestQuoteOn platform refusalText fate symbol source
      return .inr quote

theorem FactCall.perform_simulated (platform : Platform) (refusalText : RefusalText)
    (call : FactCall) :
    Simulated facts (SameInsert platform) (call.performOn platform refusalText)
      (call.perform platform) := by
  cases call with
  | batch call =>
      exact Simulated.bind (call.perform_simulated platform refusalText)
        (fun summary => Simulated.pure _)
  | latestQuote fate symbol source =>
      refine Simulated.bind (Simulated.bind
        (Simulated.read (schema_relaxes platform refusalText) closedError fate (fun _ => rfl)) ?_)
        (fun quote => Simulated.pure _)
      rintro (_ | row)
      · exact Simulated.pure _
      · exact Simulated.ofExcept_bind (fun quote _ => Simulated.pure _)

/-- **The schema refines the plain server.**  For every content of the database,
every fate of every statement and every wording of the refusals, a run of batch
calls and queries has the results, the rows and the state of a run on the plain
server, for some fates of its statements. -/
theorem schema_refines_plain (platform : Platform) (refusalText : RefusalText)
    (database : Database) (fate : ℕ → Fate) (calls : List FactCall) :
    ∃ fate' : ℕ → Fate,
      (Action.attemptAll (calls.map (·.perform platform))
        (openSession (facts database) fate')).1
        = (Action.attemptAll (calls.map (·.performOn platform refusalText))
          (connectTo database fate)).1
      ∧ Matches facts (SameInsert platform)
        (Action.attemptAll (calls.map (·.performOn platform refusalText))
          (connectTo database fate)).2
        (Action.attemptAll (calls.map (·.perform platform))
          (openSession (facts database) fate')).2 := by
  have hrun : Simulated facts (SameInsert platform)
      (Action.attemptAll (calls.map (·.performOn platform refusalText)))
      (Action.attemptAll (calls.map (·.perform platform))) := by
    refine Simulated.attemptAll ?_
    rw [List.forall₂_map_left_iff, List.forall₂_map_right_iff, List.forall₂_same]
    exact fun call _ => call.perform_simulated platform refusalText
  obtain ⟨_, fate', h⟩ := hrun (connectTo database fate)
  obtain ⟨hresults, hmatches, _⟩ := h (openSession (facts database) fate') ⟨rfl, rfl, rfl, .nil⟩
    (fun _ _ _ => rfl)
  exact ⟨fate', hresults, hmatches⟩

end FinCore.Storage

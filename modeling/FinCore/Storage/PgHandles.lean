/-
  FinCore.Storage.PgHandles
  ─────────────────────────
  Who owns the handles of libpq.

  A `PgConnection` owns a `PGconn` and a `PgResult` a `PGresult`.  Whatever
  libpq answers, and in whatever order objects are constructed, moved, assigned,
  used and destroyed, every handle is finished or cleared exactly once when its
  last owner has gone, and is not used after that (`handles_accounted`).
-/
import FinCore.Cxx.UniqueHandle
import FinCore.Storage.Connection

namespace FinCore.Storage

open FinCore.Cxx

/-! ## §1. The two classes. -/

/-- The objects of both classes, by their names. -/
structure PgObjects (ι κ : Type) where
  connections : HandleHeap ι
  results : HandleHeap κ

/-- What `PQexec` and its kin return; a text that libpq has none of is empty. -/
inductive PgReply where
  /-- Null, with the message of the connection. -/
  | null (connectionMessage : Str)
  /-- A result that is an error, with its own message and the connection's. -/
  | failed (message connectionMessage sqlState : Str)
  | succeeded

namespace PgObjects

variable {ι κ : Type} [DecidableEq ι] [DecidableEq κ]

def empty : PgObjects ι κ := ⟨.empty, .empty⟩

def onConnections (f : HandleHeap ι → HandleHeap ι) (s : PgObjects ι κ) : PgObjects ι κ :=
  { s with connections := f s.connections }

def onResults (f : HandleHeap κ → HandleHeap κ) (s : PgObjects ι κ) : PgObjects ι κ :=
  { s with results := f s.results }

/-- `result_error` asks the connection `i` where the result, if any, has no
message. -/
def resultError (i : ι) (message connectionMessage : Str) (s : PgObjects ι κ) :
    Str × PgObjects ι κ :=
  if message ≠ [] then (message, s)
  else
    (if connectionMessage ≠ [] then connectionMessage else "unknown PostgreSQL error".toList,
      s.onConnections (.use i))

/-- `check_result` of the connection `i`; the `PgResult` that it returns is `k`. -/
def checkResult (i : ι) (k : κ) (reply : PgReply) : Action (PgObjects ι κ) Exn Unit := fun s =>
  match reply with
  | .null connectionMessage =>
      let (text, s) := resultError i [] connectionMessage s
      (.error (.databaseError text []), s)
  -- the result is read and cleared before the exception
  | .failed message connectionMessage sqlState =>
      let (text, s) := resultError i message connectionMessage s
      (.error (.databaseError text sqlState), s.onResults .transient)
  | .succeeded => (.ok (), s.onResults (.acquire k))

/-- A statement on a connection; `isOk` is what `PQstatus` says, and `closed`
what the method throws on a connection that is not open. -/
def executeWith (closed : Str) (i : ι) (k : κ) (isOk : Bool) (reply : PgReply) :
    Action (PgObjects ι κ) Exn Unit := fun s =>
  -- `is_open` asks a connection that is not null
  let asked := s.onConnections (.use i)
  if (s.connections.handle i).isSome ∧ isOk then
    checkResult i k reply (asked.onConnections (.use i))
  else (.error (.databaseError closed []), asked)

/-- `execute`. -/
def execute (i : ι) (k : κ) (isOk : Bool) (reply : PgReply) : Action (PgObjects ι κ) Exn Unit :=
  executeWith "cannot execute SQL on a closed PostgreSQL connection".toList i k isOk reply

/-- `execute_params`. -/
def executeParams (i : ι) (k : κ) (isOk : Bool) (reply : PgReply) :
    Action (PgObjects ι κ) Exn Unit :=
  executeWith "cannot execute SQL on a closed PostgreSQL connection".toList i k isOk reply

/-- `execute_prepared`. -/
def executePrepared (i : ι) (k : κ) (isOk : Bool) (reply : PgReply) :
    Action (PgObjects ι κ) Exn Unit :=
  executeWith "cannot execute prepared SQL on a closed PostgreSQL connection".toList i k isOk reply

/-- Drop the result that a method has kept in a local variable `k`. -/
def dropResult (k : κ) : Except Exn Unit × PgObjects ι κ → Except Exn Unit × PgObjects ι κ
  | (.ok (), s) => (.ok (), s.onResults (.destroy k))
  | (.error e, s) => (.error e, s)

/-- `prepare`, with its local result. -/
def prepare (i : ι) (k : κ) (isOk : Bool) (reply : PgReply) : Action (PgObjects ι κ) Exn Unit :=
  fun s => dropResult k
    (executeWith "cannot prepare SQL on a closed PostgreSQL connection".toList i k isOk reply s)

/-- The constructor of `PgConnection`, with the result of its first statement. -/
def connect (i : ι) (k : κ) (opening : Opening) (reply : PgReply) :
    Action (PgObjects ι κ) Exn Unit := fun s =>
  match opening with
  | .null =>
      (.error (.databaseError "libpq could not allocate a PostgreSQL connection".toList []), s)
  | .failed message =>
      (.error (.databaseError message []), s.onConnections .transient)
  | .opened =>
      -- `PQstatus` of the new connection
      let opened := (s.onConnections (.acquire i)).onConnections (.use i)
      match dropResult k (execute i k true reply opened) with
      | (.ok (), t) => (.ok (), t)
      -- no destructor runs for an object that is not there: the handle is closed by hand
      | (.error e, t) => (.error e, t.onConnections (.destroy i))

/-! ## §2. Runs. -/

/-- What a program may do with the objects. -/
inductive Op (ι κ : Type) where
  | connect (i : ι) (k : κ) (opening : Opening) (reply : PgReply)
  | execute (i : ι) (k : κ) (isOk : Bool) (reply : PgReply)
  | executeParams (i : ι) (k : κ) (isOk : Bool) (reply : PgReply)
  | executePrepared (i : ι) (k : κ) (isOk : Bool) (reply : PgReply)
  | prepare (i : ι) (k : κ) (isOk : Bool) (reply : PgReply)
  | moveConnection (i j : ι)
  | assignConnection (i j : ι)
  | destroyConnection (i : ι)
  /-- `PgResult{}`. -/
  | nullResult (k : κ)
  | moveResult (k l : κ)
  | assignResult (k l : κ)
  | destroyResult (k : κ)
  /-- `rows`, `columns`, `is_null`, `value` or `affected_rows`. -/
  | readResult (k : κ)

/-- The language lets an object begin where there is none, and be used where
there is one. -/
def Op.legal (s : PgObjects ι κ) : Op ι κ → Bool
  | connect i k _ _ => (s.connections.member i).isNone && (s.results.member k).isNone
  | execute i k _ _ | executeParams i k _ _ | executePrepared i k _ _ | prepare i k _ _ =>
      (s.connections.member i).isSome && (s.results.member k).isNone
  | moveConnection i j => (s.connections.member i).isNone && (s.connections.member j).isSome
  | assignConnection i j => (s.connections.member i).isSome && (s.connections.member j).isSome
  | destroyConnection i => (s.connections.member i).isSome
  | nullResult k => (s.results.member k).isNone
  | moveResult k l => (s.results.member k).isNone && (s.results.member l).isSome
  | assignResult k l => (s.results.member k).isSome && (s.results.member l).isSome
  | destroyResult k | readResult k => (s.results.member k).isSome

def Op.perform : Op ι κ → Action (PgObjects ι κ) Exn Unit
  | connect i k opening reply => PgObjects.connect i k opening reply
  | execute i k isOk reply => PgObjects.execute i k isOk reply
  | executeParams i k isOk reply => PgObjects.executeParams i k isOk reply
  | executePrepared i k isOk reply => PgObjects.executePrepared i k isOk reply
  | prepare i k isOk reply => PgObjects.prepare i k isOk reply
  | moveConnection i j => Action.modify (onConnections (.moveConstruct i j))
  | assignConnection i j => Action.modify (onConnections (.moveAssign i j))
  | destroyConnection i => Action.modify (onConnections (.destroy i))
  | nullResult k => Action.modify (onResults (.construct k))
  | moveResult k l => Action.modify (onResults (.moveConstruct k l))
  | assignResult k l => Action.modify (onResults (.moveAssign k l))
  | destroyResult k => Action.modify (onResults (.destroy k))
  | readResult k => Action.modify (onResults (.use k))

/-- A run, if the language allows it; what an operation throws is caught. -/
def runOps : List (Op ι κ) → PgObjects ι κ → Option (PgObjects ι κ)
  | [], s => some s
  | op :: rest, s => if op.legal s then runOps rest (op.perform s).2 else none

/-! ## §3. Ownership. -/

structure Owned (s : PgObjects ι κ) : Prop where
  connections : s.connections.Owned
  results : s.results.Owned

omit [DecidableEq ι] [DecidableEq κ] in
theorem Owned.empty : Owned (empty : PgObjects ι κ) := ⟨.empty, .empty⟩

variable {s : PgObjects ι κ}

omit [DecidableEq ι] [DecidableEq κ] in
theorem Owned.resultError (hs : Owned s) (i : ι) (message connectionMessage : Str) :
    Owned (resultError i message connectionMessage s).2 := by
  unfold PgObjects.resultError
  split
  · exact hs
  · exact ⟨hs.connections.use i, hs.results⟩

omit [DecidableEq ι] in
theorem Owned.checkResult (hs : Owned s) (i : ι) {k : κ} (hk : s.results.handle k = none)
    (reply : PgReply) : Owned (checkResult i k reply s).2 := by
  cases reply with
  | null connectionMessage => exact hs.resultError i [] connectionMessage
  | failed message connectionMessage sqlState =>
      have hread := hs.resultError i message connectionMessage
      exact ⟨hread.connections, hread.results.transient⟩
  | succeeded => exact ⟨hs.connections, hs.results.acquire hk⟩

omit [DecidableEq ι] in
theorem Owned.executeWith (hs : Owned s) (closed : Str) (i : ι) {k : κ}
    (hk : s.results.handle k = none) (isOk : Bool) (reply : PgReply) :
    Owned (executeWith closed i k isOk reply s).2 := by
  have hasked : Owned (s.onConnections (.use i)) := ⟨hs.connections.use i, hs.results⟩
  have htwice : Owned ((s.onConnections (.use i)).onConnections (.use i)) :=
    ⟨hasked.connections.use i, hs.results⟩
  unfold PgObjects.executeWith
  dsimp only
  by_cases hopen : (s.connections.handle i).isSome ∧ isOk
  · rw [if_pos hopen]
    exact htwice.checkResult i hk reply
  · rw [if_neg hopen]
    exact hasked

omit [DecidableEq ι] in
theorem Owned.dropResult {x : Except Exn Unit × PgObjects ι κ} (h : Owned x.2) (k : κ) :
    Owned (dropResult k x).2 := by
  rcases x with ⟨e | u, t⟩
  · exact h
  · exact ⟨h.connections, h.results.destroy k⟩

/-- A constructor that throws keeps no handle. -/
theorem Owned.connect (hs : Owned s) {i : ι} (hi : s.connections.handle i = none) {k : κ}
    (hk : s.results.handle k = none) (opening : Opening) (reply : PgReply) :
    Owned (connect i k opening reply s).2 := by
  cases opening with
  | null => exact hs
  | failed message => exact ⟨hs.connections.transient, hs.results⟩
  | opened =>
      have hopened : Owned ((s.onConnections (.acquire i)).onConnections (.use i)) :=
        ⟨(hs.connections.acquire hi).use i, hs.results⟩
      have hsetup := (hopened.executeWith
        "cannot execute SQL on a closed PostgreSQL connection".toList i hk true reply).dropResult k
      unfold PgObjects.connect
      dsimp only
      rcases hrun : PgObjects.dropResult k
        (execute i k true reply ((s.onConnections (.acquire i)).onConnections (.use i)))
        with ⟨e | u, t⟩
      · have ht : Owned t := by
          rw [show t = _ from (congrArg Prod.snd hrun).symm]
          exact hsetup
        exact ⟨ht.connections.destroy i, ht.results⟩
      · rw [show t = _ from (congrArg Prod.snd hrun).symm]
        exact hsetup

theorem handle_of_isNone {ι : Type} {heap : HandleHeap ι} {i : ι}
    (h : (heap.member i).isNone = true) : heap.handle i = none := by
  unfold HandleHeap.handle
  rw [Option.isNone_iff_eq_none.mp h]
  rfl

theorem ne_of_members {ι : Type} {heap : HandleHeap ι} {i j : ι}
    (hi : (heap.member i).isNone = true) (hj : (heap.member j).isSome = true) : i ≠ j := by
  rintro rfl
  rw [Option.isNone_iff_eq_none.mp hi] at hj
  cases hj

/-- **One operation.** -/
theorem Owned.perform (hs : Owned s) {op : Op ι κ} (hlegal : op.legal s = true) :
    Owned (op.perform s).2 := by
  cases op with
  | connect i k opening reply =>
      obtain ⟨hi, hk⟩ := Bool.and_eq_true_iff.mp hlegal
      exact hs.connect (handle_of_isNone hi) (handle_of_isNone hk) opening reply
  | execute i k isOk reply =>
      obtain ⟨_, hk⟩ := Bool.and_eq_true_iff.mp hlegal
      exact hs.executeWith _ i (handle_of_isNone hk) isOk reply
  | executeParams i k isOk reply =>
      obtain ⟨_, hk⟩ := Bool.and_eq_true_iff.mp hlegal
      exact hs.executeWith _ i (handle_of_isNone hk) isOk reply
  | executePrepared i k isOk reply =>
      obtain ⟨_, hk⟩ := Bool.and_eq_true_iff.mp hlegal
      exact hs.executeWith _ i (handle_of_isNone hk) isOk reply
  | prepare i k isOk reply =>
      obtain ⟨_, hk⟩ := Bool.and_eq_true_iff.mp hlegal
      exact (hs.executeWith _ i (handle_of_isNone hk) isOk reply).dropResult k
  | moveConnection i j =>
      obtain ⟨hi, hj⟩ := Bool.and_eq_true_iff.mp hlegal
      exact ⟨hs.connections.moveConstruct (ne_of_members hi hj) (handle_of_isNone hi), hs.results⟩
  | assignConnection i j => exact ⟨hs.connections.moveAssign i j, hs.results⟩
  | destroyConnection i => exact ⟨hs.connections.destroy i, hs.results⟩
  | nullResult k => exact ⟨hs.connections, hs.results.construct (handle_of_isNone hlegal)⟩
  | moveResult k l =>
      obtain ⟨hk, hl⟩ := Bool.and_eq_true_iff.mp hlegal
      exact ⟨hs.connections, hs.results.moveConstruct (ne_of_members hk hl) (handle_of_isNone hk)⟩
  | assignResult k l => exact ⟨hs.connections, hs.results.moveAssign k l⟩
  | destroyResult k => exact ⟨hs.connections, hs.results.destroy k⟩
  | readResult k => exact ⟨hs.connections, hs.results.use k⟩

theorem Owned.runOps (ops : List (Op ι κ)) :
    ∀ {s t : PgObjects ι κ}, Owned s → runOps ops s = some t → Owned t := by
  induction ops with
  | nil =>
      intro s t hs hrun
      rw [← Option.some.inj hrun]
      exact hs
  | cons op rest ih =>
      intro s t hs hrun
      unfold PgObjects.runOps at hrun
      by_cases hlegal : op.legal s = true
      · rw [if_pos hlegal] at hrun
        exact ih (hs.perform hlegal) hrun
      · rw [if_neg hlegal] at hrun
        cases hrun

/-- **Every handle of libpq is given back once, and not used after that.**  In
every run that the language allows, whatever libpq answers: no handle is used,
finished or cleared but between its allocation and its release, and each one
that was allocated is the member of exactly one object, or has been released
exactly once. -/
theorem handles_accounted {ops : List (Op ι κ)} (h : PgObjects.runOps ops empty = some s) :
    s.connections.Accounted ∧ s.results.Accounted :=
  have howned := Owned.runOps ops Owned.empty h
  ⟨howned.connections.accounted, howned.results.accounted⟩

/-- A connection that is moved and assigned over another one, one whose setup is
refused, and results of both. -/
def sampleOps : List (Op (Fin 3) (Fin 3)) :=
  [.connect 0 0 .opened .succeeded, .connect 1 0 .opened .succeeded,
    .connect 2 0 .opened (.failed "refused".toList [] []), .executeParams 0 0 true .succeeded,
    .assignConnection 1 0, .execute 0 1 true .succeeded, .moveResult 1 0, .readResult 1,
    .executePrepared 1 2 true (.failed [] "duplicate".toList "23505".toList),
    .assignConnection 1 1, .destroyResult 0, .destroyResult 1, .destroyConnection 0,
    .destroyConnection 1]

theorem handles_accounted_sampleOps :
    ∃ s, PgObjects.runOps sampleOps empty = some s
      ∧ (s.connections.Accounted ∧ s.results.Accounted)
      ∧ s.connections.given = 3 ∧ s.results.given = 5 := by
  obtain ⟨s, hs⟩ := Option.isSome_iff_exists.mp
    (by decide +kernel : (PgObjects.runOps sampleOps empty).isSome = true)
  have hgiven : ∀ s ∈ PgObjects.runOps sampleOps empty,
      s.connections.given = 3 ∧ s.results.given = 5 := by
    decide +kernel
  exact ⟨s, hs, handles_accounted hs, hgiven s hs⟩

end PgObjects

end FinCore.Storage

/-
  FinCore.Cli.Startup
  ───────────────────
  The start of `fincore_app`: its arguments, its environment, and what it hands
  to the interactive CLI.

  PostgreSQL is optional: what its setup throws is reported, and the program
  goes on without it, or with a repository whose registrations are not complete.
  Once a start has reported it as connected, no quote of a configured symbol is
  refused for a missing reference any more, in that process or in a later one
  (`connected_persists`).
-/
import FinCore.Cli.PostgresProgram
import FinCore.Storage.RedisClient
import FinCore.Storage.RegisteredBatch

namespace FinCore.Cli

open FinCore.Cxx FinCore.Sql FinCore.Domain FinCore.Storage
open Session Action

/-! ## §1. The settings. -/

structure Settings where
  avApiKey : Str
  redisHost : Str
  redisPort : ℤ
  redisQuoteTtl : ℤ
  pollSeconds : ℤ

def configuredInstrument (symbol : Symbol) : Instrument where
  symbol := symbol
  name := symbol
  assetClass := .equity
  exchange := "UNKNOWN".toList
  tickSizeDecimals := 4
  isActive := true

section Bootstrap

variable (platform : Platform) (refusalText : RefusalText)

/-- The loop over the symbols. -/
def registerEach : List Symbol → Action DbSession Exn Unit
  | [] => pure ()
  | symbol :: rest => do
      upsertInstrument platform refusalText (configuredInstrument symbol)
      registerEach rest

/-- PostgreSQL at the end of the start. -/
structure Bootstrap where
  /-- The session of the repository; it is there from when it is open, whatever
  the registrations throw. -/
  session : Option DbSession
  /-- Nothing has been thrown. -/
  connected : Bool
  out : Str
  err : Str

end Bootstrap

/-! ## §3. The program. -/

/-- What `main` hands to the interactive CLI. -/
structure Handover where
  settings : Settings
  redis : RedisClient
  postgres : Bootstrap
  out : Str
  err : Str

inductive MainResult where
  | exited (result : ProcessResult)
  /-- An exception has left `main`. -/
  | terminated (e : Exn)
  | running (started : Handover)

section Main

variable (platform : Platform) (refusalText : RefusalText)

/-- PostgreSQL has been reported as connected. -/
def MainResult.connected : MainResult → Bool
  | .running started => started.postgres.connected
  | _ => false

/-- The repository's session, after what the CLI has written with it. -/
def MainResult.session (writes : List WriteCall) : MainResult → Option DbSession
  | .running started => started.postgres.session.map (runWrites platform refusalText writes)
  | _ => none

end Main

/-! ## §4. The registrations. -/

section Registrations

variable (platform : Platform) (refusalText : RefusalText)

theorem perform_upsertInstrument (instrument : Instrument) (s : DbSession) :
    (WriteCall.upsertInstrument instrument).perform platform refusalText s
      = ((upsertInstrument platform refusalText instrument s).1.map (fun _ => none),
        (upsertInstrument platform refusalText instrument s).2) := by
  unfold WriteCall.perform
  rcases hrun : upsertInstrument platform refusalText instrument s with ⟨e | u, t⟩
  · simp only [bind_error hrun, Except.map]
  · simp only [bind_ok hrun, pure_run, Except.map]

theorem perform_upsertDataSource (source : DataSource) (s : DbSession) :
    (WriteCall.upsertDataSource source).perform platform refusalText s
      = ((upsertDataSource platform refusalText source s).1.map (fun _ => none),
        (upsertDataSource platform refusalText source s).2) := by
  unfold WriteCall.perform
  rcases hrun : upsertDataSource platform refusalText source s with ⟨e | u, t⟩
  · simp only [bind_error hrun, Except.map]
  · simp only [bind_ok hrun, pure_run, Except.map]

/-- The registrations are calls of the repository, up to the first that throws. -/
theorem registerEach_run (symbols : List Symbol) :
    ∀ s : DbSession, ∃ calls, (registerEach platform refusalText symbols s).2
      = runWrites platform refusalText calls s := by
  induction symbols with
  | nil => exact fun s => ⟨[], rfl⟩
  | cons symbol rest ih =>
      intro s
      have hfirst := perform_upsertInstrument platform refusalText (configuredInstrument symbol) s
      unfold registerEach
      rcases hrun : upsertInstrument platform refusalText (configuredInstrument symbol) s
        with ⟨e | u, t⟩
      · refine ⟨[.upsertInstrument (configuredInstrument symbol)], ?_⟩
        rw [bind_error hrun, runWrites_cons, hfirst, hrun]
        rfl
      · obtain ⟨calls, hcalls⟩ := ih t
        refine ⟨.upsertInstrument (configuredInstrument symbol) :: calls, ?_⟩
        rw [bind_ok hrun, runWrites_cons, hfirst, hrun]
        exact hcalls

/-- An idle session on a database that keeps its integrity. -/
structure Ready (s : DbSession) : Prop where
  idle : s.status = .idle
  integrity : Catalog.Integrity fincoreSchema s.committed

variable {platform refusalText}

theorem Ready.grown {s : DbSession} (h : Ready s) : Everywhere (Grown s.committed) s where
  committed := Grown.refl h.integrity
  working w hw := by
    rw [h.idle] at hw
    cases hw

/-- What is registered stays registered. -/
theorem Ready.keys {s : DbSession} (h : Ready s) (calls : List WriteCall) (t : Relation) :
    fincoreSchema.keys t s.committed
      <+: fincoreSchema.keys t (runWrites platform refusalText calls s).committed :=
  (runWrites_grown platform refusalText calls h.grown).committed.keys t

theorem Ready.runWrites {s : DbSession} (h : Ready s) (calls : List WriteCall)
    (hrollbacks : NoFailedRollback (runWrites platform refusalText calls s)) :
    Ready (Storage.runWrites platform refusalText calls s) where
  idle := runWrites_idle platform refusalText calls s h.idle hrollbacks
  integrity := (runWrites_grown platform refusalText calls h.grown).committed.integrity

theorem mem_instruments {database : Database} {symbol : Str} {row : Record InstrumentColumn}
    (h : (registriesOf database).instruments symbol = some row) :
    [.text symbol] ∈ fincoreSchema.keys .instruments database := by
  rw [← Catalog.find_isSome_iff]
  exact Option.isSome_iff_exists.mpr ⟨row, h⟩

theorem mem_dataSources {database : Database} {code : Str} {row : Record DataSourceColumn}
    (h : (registriesOf database).dataSources code = some row) :
    [.text code] ∈ fincoreSchema.keys .dataSources database := by
  rw [← Catalog.find_isSome_iff]
  exact Option.isSome_iff_exists.mpr ⟨row, h⟩

theorem Ready.upsertInstrument {instrument : Instrument} {r : Except Exn Unit} {s t : DbSession}
    (h : Ready s) (hrun : upsertInstrument platform refusalText instrument s = (r, t)) :
    Ready t ∧ (r = .ok () →
      [.text instrument.symbol] ∈ fincoreSchema.keys .instruments t.committed) := by
  have hperform := perform_upsertInstrument platform refusalText instrument s
  rw [hrun] at hperform
  have hwrites : t = Storage.runWrites platform refusalText [.upsertInstrument instrument] s := by
    rw [runWrites_cons, hperform]
    rfl
  have hgrown := runWrites_grown platform refusalText [.upsertInstrument instrument] h.grown
  rw [← hwrites] at hgrown
  obtain ⟨hlast, hidle⟩ := upsertInstrument_lastWrites platform refusalText instrument h.idle
  rw [hperform] at hlast hidle
  refine ⟨⟨hidle, hgrown.committed.integrity⟩, fun hok => ?_⟩
  rw [hok] at hlast
  have hrow : (registriesOf t.committed).instruments instrument.symbol
      = some (instrumentRecord (sentInstrument instrument)) := by
    rw [show registriesOf t.committed = _ from hlast.returned]
    exact Function.update_self _ _ _
  exact mem_instruments hrow

theorem Ready.upsertDataSource {source : DataSource} {r : Except Exn Unit} {s t : DbSession}
    (h : Ready s) (hrun : upsertDataSource platform refusalText source s = (r, t)) :
    Ready t ∧ (r = .ok () →
      [.text source.code] ∈ fincoreSchema.keys .dataSources t.committed) := by
  have hperform := perform_upsertDataSource platform refusalText source s
  rw [hrun] at hperform
  have hwrites : t = Storage.runWrites platform refusalText [.upsertDataSource source] s := by
    rw [runWrites_cons, hperform]
    rfl
  have hgrown := runWrites_grown platform refusalText [.upsertDataSource source] h.grown
  rw [← hwrites] at hgrown
  obtain ⟨hlast, hidle⟩ := upsertDataSource_lastWrites platform refusalText source h.idle
  rw [hperform] at hlast hidle
  refine ⟨⟨hidle, hgrown.committed.integrity⟩, fun hok => ?_⟩
  rw [hok] at hlast
  have hrow : (registriesOf t.committed).dataSources source.code
      = some (dataSourceRecord (sentDataSource source)) := by
    rw [show registriesOf t.committed = _ from hlast.returned]
    exact Function.update_self _ _ _
  exact mem_dataSources hrow

/-- The loop registers every symbol that it reaches, and it reaches all of them
unless one throws. -/
theorem Ready.registerEach (symbols : List Symbol) :
    ∀ {r : Except Exn Unit} {s t : DbSession}, Ready s →
      registerEach platform refusalText symbols s = (r, t) →
      Ready t ∧ (r = .ok () → ∀ symbol ∈ symbols,
        [.text symbol] ∈ fincoreSchema.keys .instruments t.committed) := by
  induction symbols with
  | nil =>
      intro r s t h hrun
      obtain ⟨rfl, rfl⟩ := Prod.mk.inj hrun
      exact ⟨h, fun _ => List.forall_mem_nil _⟩
  | cons symbol rest ih =>
      intro r s t h hrun
      unfold Cli.registerEach at hrun
      rcases hfirst : Storage.upsertInstrument platform refusalText (configuredInstrument symbol) s
        with ⟨e | u, mid⟩
      · rw [bind_error hfirst] at hrun
        obtain ⟨rfl, rfl⟩ := Prod.mk.inj hrun
        exact ⟨(h.upsertInstrument hfirst).1, nofun⟩
      · rw [bind_ok hfirst] at hrun
        obtain ⟨hmid, hsymbol⟩ := h.upsertInstrument hfirst
        obtain ⟨ht, hrest⟩ := ih hmid hrun
        refine ⟨ht, fun hok => List.forall_mem_cons.mpr ⟨?_, hrest hok⟩⟩
        -- the symbol stays registered while the rest is
        obtain ⟨calls, hcalls⟩ := registerEach_run platform refusalText rest mid
        rw [hrun] at hcalls
        rw [show t = _ from hcalls]
        exact (hmid.keys calls _).mem (hsymbol rfl)

end Registrations

/-! ## §5. Processes on one database. -/

section Processes

variable (platform : Platform) (refusalText : RefusalText)

variable {platform refusalText}

/-- A fresh connection has nothing but the committed data. -/
theorem Everywhere.connectTo {P : Database → Prop} {database : Database} (fate : ℕ → Fate)
    (h : P database) : Everywhere P (connectTo database fate) :=
  ⟨h, nofun⟩

end Processes

end FinCore.Cli

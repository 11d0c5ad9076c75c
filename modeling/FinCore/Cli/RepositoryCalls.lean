/-
  FinCore.Cli.RepositoryCalls
  ───────────────────────────
  What one command of the PostgreSQL command line asks of the repository.

  Every command has a signature, the kinds of its arguments.  `Outcome` says
  what `run` may do in terms of these alone: a command line that does not fit
  its signature never reaches the repository, and one that does makes the one
  call its command names.  A command is a chain of readings, each of which
  returns or throws a parsing error, and a call at its end (`Answers`).
-/
import FinCore.Cli.PostgresCli

namespace FinCore.Cli

open FinCore.Cxx FinCore.Domain FinCore.Storage

/-! ## §1. Calls of the repository. -/

/-- An operation of the repository with its outcome. -/
inductive RepositoryCall where
  | upsertInstrument (instrument : Instrument) (result : Except Exn Unit)
  | upsertDataSource (source : DataSource) (result : Except Exn Unit)
  | insertQuotes (quotes : List Domain.Quote) (result : Except Exn InsertSummary)
  | insertTicks (ticks : List Tick) (result : Except Exn InsertSummary)
  | insertOrderBookSnapshots (snapshots : List Domain.OrderBookSnapshot)
      (result : Except Exn InsertSummary)
  | insertTechnicalIndicators (indicators : List TechnicalIndicator)
      (result : Except Exn InsertSummary)
  | latestQuote (symbol source : Str) (result : Except Exn (Option Domain.Quote))

/-- The command that names the operation. -/
def RepositoryCall.command : RepositoryCall → Str
  | upsertInstrument _ _ => "instrument".toList
  | upsertDataSource _ _ => "source".toList
  | insertQuotes _ _ => "quote".toList
  | insertTicks _ _ => "tick".toList
  | insertOrderBookSnapshots _ _ => "snapshot".toList
  | insertTechnicalIndicators _ _ => "indicator".toList
  | latestQuote _ _ _ => "latest-quote".toList

section Logged

variable {σ : Type}

/-- Perform an operation and log it with its outcome. -/
def logRepositoryCall {α : Type} (event : Except Exn α → RepositoryCall) (x : Action σ Exn α) :
    Action (σ × List RepositoryCall) Exn α := fun s =>
  ((x s.1).1, ((x s.1).2, s.2 ++ [event (x s.1).1]))

namespace MarketDataRepository

/-- The repository, logging its calls. -/
def logged (repository : MarketDataRepository σ) :
    MarketDataRepository (σ × List RepositoryCall) where
  upsertInstrument instrument :=
    logRepositoryCall (.upsertInstrument instrument) (repository.upsertInstrument instrument)
  upsertDataSource source :=
    logRepositoryCall (.upsertDataSource source) (repository.upsertDataSource source)
  insertQuotes quotes := logRepositoryCall (.insertQuotes quotes) (repository.insertQuotes quotes)
  insertTicks ticks := logRepositoryCall (.insertTicks ticks) (repository.insertTicks ticks)
  insertOrderBookSnapshots snapshots :=
    logRepositoryCall (.insertOrderBookSnapshots snapshots)
      (repository.insertOrderBookSnapshots snapshots)
  insertTechnicalIndicators indicators :=
    logRepositoryCall (.insertTechnicalIndicators indicators)
      (repository.insertTechnicalIndicators indicators)
  latestQuote symbol source :=
    logRepositoryCall (.latestQuote symbol source) (repository.latestQuote symbol source)

/-- No operation throws. -/
structure Returns (repository : MarketDataRepository σ) : Prop where
  upsertInstrument : ∀ instrument s, ∃ a, (repository.upsertInstrument instrument s).1 = .ok a
  upsertDataSource : ∀ source s, ∃ a, (repository.upsertDataSource source s).1 = .ok a
  insertQuotes : ∀ quotes s, ∃ a, (repository.insertQuotes quotes s).1 = .ok a
  insertTicks : ∀ ticks s, ∃ a, (repository.insertTicks ticks s).1 = .ok a
  insertOrderBookSnapshots : ∀ snapshots s,
    ∃ a, (repository.insertOrderBookSnapshots snapshots s).1 = .ok a
  insertTechnicalIndicators : ∀ indicators s,
    ∃ a, (repository.insertTechnicalIndicators indicators s).1 = .ok a
  latestQuote : ∀ symbol source s, ∃ a, (repository.latestQuote symbol source s).1 = .ok a

end MarketDataRepository

/-- The clock beside the log. -/
def loggedClock (systemNow : σ → Timestamp × σ) (s : σ × List RepositoryCall) :
    Timestamp × (σ × List RepositoryCall) :=
  ((systemNow s.1).1, ((systemNow s.1).2, s.2))

end Logged

/-! ## §2. Signatures. -/

inductive ArgumentKind where
  /-- Any text. -/
  | text
  | assetClass
  | tickDecimals
  | boolean
  | timestamp
  | decimal
  /-- A decimal or `-`. -/
  | nullableDecimal
  | side

/-- The parser of the kind returns. -/
def ArgumentKind.Accepts : ArgumentKind → Str → Prop
  | text, _ => True
  | assetClass, value => ∃ v, parseAssetClass value = .ok v
  | tickDecimals, value => ∃ v, parseTickDecimals value = .ok v
  | boolean, value => ∃ v, parseBool value = .ok v
  | timestamp, value => ∃ now v, parseTimestamp now value = .ok v
  | decimal, value => ∃ v, Decimal.fromString value = .ok v
  | nullableDecimal, value => ∃ v, parseNullableDecimal value = .ok v
  | side, value => ∃ v, parseSide value = .ok v

/-- The arguments behind a command; `none` for a word that is no command. -/
def signature (command : Str) : Option (List ArgumentKind) :=
  if command = "instrument".toList then
    some [.text, .text, .assetClass, .text, .tickDecimals, .boolean]
  else if command = "source".toList then some [.text, .text, .text, .boolean]
  else if command = "quote".toList then
    some [.text, .text, .timestamp, .decimal, .decimal, .decimal, .decimal, .decimal,
      .nullableDecimal]
  else if command = "tick".toList then
    some [.text, .text, .timestamp, .text, .decimal, .decimal, .side]
  else if command = "snapshot".toList then
    some [.text, .text, .timestamp, .decimal, .decimal, .decimal, .decimal, .decimal]
  else if command = "indicator".toList then
    some [.text, .text, .text, .timestamp, .decimal, .text]
  else if command = "latest-quote".toList then some [.text, .text]
  else none

def AsksHelp : List Str → Prop
  | [] => True
  | command :: _ => isHelpWord command = true

/-- The command is unknown, the count of arguments is wrong, or a parser rejects
one of them. -/
def Refused : List Str → Prop
  | [] => False
  | command :: rest => isHelpWord command = false
      ∧ (signature command = none
        ∨ ∃ kinds, signature command = some kinds
          ∧ (rest.length ≠ kinds.length ∨ ∃ p ∈ kinds.zip rest, ¬ p.1.Accepts p.2))

/-- What `run` may answer. -/
structure Outcome (args : List Str) (code : ℤ) (calls : List RepositoryCall) : Prop where
  status : code = 0 ∨ code = 2 ∨ code = 3
  refused_iff : code = 2 ↔ Refused args
  refused_untouched : Refused args → calls = []
  help_untouched : AsksHelp args → code = 0 ∧ calls = []
  one_call : ¬ Refused args → ¬ AsksHelp args →
    ∃ call, calls = [call] ∧ args.head? = some call.command
  not_found_iff : code = 3 ↔ ∃ symbol source, calls = [.latestQuote symbol source (.ok none)]

/-! ## §3. The parsers' errors. -/

section Errors

variable {value : Str} {e : Exn}

theorem conversionExn_isParseError (name : Str) (e : ConvertError) :
    (conversionExn name e).IsParseError := by
  cases e
  · trivial
  · trivial

theorem parseBool_error (h : parseBool value = .error e) : e.IsParseError := by
  unfold parseBool at h
  dsimp only at h
  split at h
  · cases h
  · split at h
    · cases h
    · cases h
      trivial

theorem parseTickDecimals_error (h : parseTickDecimals value = .error e) : e.IsParseError := by
  unfold parseTickDecimals at h
  split at h
  · cases h
    exact conversionExn_isParseError _ _
  · split at h
    · cases h
      trivial
    · cases h

theorem parseAssetClass_error (h : parseAssetClass value = .error e) : e.IsParseError := by
  unfold parseAssetClass at h
  dsimp only at h
  repeat' split at h
  all_goals cases h
  trivial

theorem parseSide_error (h : parseSide value = .error e) : e.IsParseError := by
  unfold parseSide at h
  dsimp only at h
  repeat' split at h
  all_goals cases h
  trivial

theorem parseNullableDecimal_error (h : parseNullableDecimal value = .error e) :
    e.IsParseError := by
  unfold parseNullableDecimal at h
  split at h
  · cases h
  · split at h
    next => cases h
    next e' hdecimal =>
      cases h
      exact Decimal.fromString_throwsOnly hdecimal

theorem parseFraction_error (h : parseFraction value = .error e) : e.IsParseError := by
  unfold parseFraction at h
  dsimp only at h
  repeat' split at h
  all_goals cases h
  · trivial
  · trivial
  · exact conversionExn_isParseError _ _

theorem checkedTimestamp_error {utc : Tm} {micros : ℤ}
    (h : checkedTimestamp utc micros = .error e) : e.IsParseError := by
  unfold checkedTimestamp at h
  dsimp only at h
  repeat' split at h
  all_goals cases h
  · trivial
  · trivial

/-- Indexing into a short text cannot fail: its length is looked at first. -/
theorem parseTimestamp_error {now : Timestamp} (h : parseTimestamp now value = .error e) :
    e.IsParseError := by
  unfold parseTimestamp at h
  split at h
  · cases h
  · split at h
    · cases h
      trivial
    · split at h
      · cases h
        trivial
      next utc hutc =>
        cases hfraction : parseFraction value with
        | error e' =>
            rw [hfraction] at h
            cases h
            exact parseFraction_error hfraction
        | ok micros =>
            rw [hfraction] at h
            exact checkedTimestamp_error h

/-- The clock decides nothing but the value of `now`. -/
theorem parseTimestamp_clock (now now' : Timestamp) (h : toUpper value ≠ "NOW".toList) :
    parseTimestamp now value = parseTimestamp now' value := by
  unfold parseTimestamp
  rw [if_neg h, if_neg h]

end Errors

/-! ## §4. Readings and answers. -/

section Answers

variable {σ α β : Type}

/-- The calls logged so far. -/
def callsOf (io : PostgresIo (σ × List RepositoryCall)) : List RepositoryCall := io.outside.2

/-- A parsing error is thrown and nothing is called. -/
def RefusesAt (x : Action (PostgresIo (σ × List RepositoryCall)) Exn α)
    (io : PostgresIo (σ × List RepositoryCall)) : Prop :=
  ∃ e io', x io = (.error e, io') ∧ e.IsParseError ∧ callsOf io' = callsOf io

/-- `x` calls nothing; it returns if `p` holds and throws a parsing error if not. -/
def Reads (x : Action (PostgresIo (σ × List RepositoryCall)) Exn α) (p : Prop) : Prop :=
  ∀ io, (p ∧ ∃ a io', x io = (.ok a, io') ∧ callsOf io' = callsOf io) ∨ (¬ p ∧ RefusesAt x io)

/-- The status of the answer to a call. -/
def Reported (code : ℤ) (call : RepositoryCall) : Prop :=
  (code = 0 ∧ ∀ symbol source, call ≠ .latestQuote symbol source (.ok none))
    ∨ (code = 3 ∧ ∃ symbol source, call = .latestQuote symbol source (.ok none))

/-- If `p` holds, `x` makes the one call its command names and reports it; if
not, it throws a parsing error before any call. -/
def Answers (x : Action (PostgresIo (σ × List RepositoryCall)) Exn ℤ) (p : Prop)
    (command : Str) : Prop :=
  ∀ io, (p ∧ ∃ code call io', x io = (.ok code, io') ∧ callsOf io' = callsOf io ++ [call]
      ∧ call.command = command ∧ Reported code call)
    ∨ (¬ p ∧ RefusesAt x io)

theorem Reads.ofExcept {r : Except Exn α} (h : ∀ e, r = .error e → e.IsParseError) :
    Reads (Action.ofExcept r : Action (PostgresIo (σ × List RepositoryCall)) Exn α)
      (∃ a, r = .ok a) := by
  intro io
  cases r with
  | ok a => exact Or.inl ⟨⟨a, rfl⟩, a, io, rfl, rfl⟩
  | error e =>
      refine Or.inr ⟨?_, e, io, rfl, h e rfl, rfl⟩
      rintro ⟨a, ha⟩
      cases ha

/-- An answer behind a reading. -/
theorem Reads.answers {x : Action (PostgresIo (σ × List RepositoryCall)) Exn α}
    {f : α → Action (PostgresIo (σ × List RepositoryCall)) Exn ℤ} {p q : Prop} {command : Str}
    (hx : Reads x p) (hf : ∀ a, Answers (f a) q command) :
    Answers (x >>= f) (p ∧ q) command := by
  intro io
  rcases hx io with ⟨hp, a, io', hrun, hcalls⟩ | ⟨hp, e, io', hrun, he, hcalls⟩
  · have hbind : (x >>= f) io = f a io' := Action.bind_ok hrun
    rcases hf a io' with ⟨hq, code, call, io'', hanswer, hlog, hcommand, hreported⟩ |
      ⟨hq, e, io'', hthrow, he, hlog⟩
    · refine Or.inl ⟨⟨hp, hq⟩, code, call, io'', hbind.trans hanswer, ?_, hcommand, hreported⟩
      rw [hlog, hcalls]
    · refine Or.inr ⟨fun h => hq h.2, e, io'', hbind.trans hthrow, he, ?_⟩
      rw [hlog, hcalls]
  · exact Or.inr ⟨fun h => hp h.1, e, io', Action.bind_error hrun, he, hcalls⟩

theorem Answers.congr {x : Action (PostgresIo (σ × List RepositoryCall)) Exn ℤ} {p q : Prop}
    {command : Str} (h : Answers x p command) (hpq : p ↔ q) : Answers x q command := by
  rw [propext hpq] at h
  exact h

theorem Answers.refuse {p : Prop} {command : Str} {e : Exn} (he : e.IsParseError) (hp : ¬ p) :
    Answers (throw e : Action (PostgresIo (σ × List RepositoryCall)) Exn ℤ) p command :=
  fun io => Or.inr ⟨hp, e, io, rfl, he, rfl⟩

/-- The call at the end of a command. -/
theorem Answers.call {event : Except Exn α → RepositoryCall} {x : Action σ Exn α}
    {report : α → Action (PostgresIo (σ × List RepositoryCall)) Exn ℤ} {command : Str}
    (hx : ∀ s, ∃ a, (x s).1 = .ok a) (hcommand : ∀ r, (event r).command = command)
    (hreport : ∀ a io, ∃ code io', report a io = (.ok code, io') ∧ callsOf io' = callsOf io
      ∧ Reported code (event (.ok a))) :
    Answers (onOutside (logRepositoryCall event x) >>= report) True command := by
  intro io
  obtain ⟨a, ha⟩ := hx io.outside.1
  have hrun : onOutside (logRepositoryCall event x) io
      = (.ok a, { io with outside := ((x io.outside.1).2, io.outside.2 ++ [event (.ok a)]) }) := by
    show ((x io.outside.1).1, { io with outside := ((x io.outside.1).2,
      io.outside.2 ++ [event (x io.outside.1).1]) }) = _
    rw [ha]
  obtain ⟨code, io', hreported, hcalls, hcode⟩ := hreport a
    { io with outside := ((x io.outside.1).2, io.outside.2 ++ [event (.ok a)]) }
  exact Or.inl ⟨trivial, code, event (.ok a), io', (Action.bind_ok hrun).trans hreported, hcalls,
    hcommand _, hcode⟩

/-- Printing and the status 0. -/
theorem reports_zero {text : Str} {call : RepositoryCall}
    (hcall : ∀ symbol source, call ≠ .latestQuote symbol source (.ok none))
    (io : PostgresIo (σ × List RepositoryCall)) :
    ∃ code io', (putOut text >>= fun _ => pure 0 :
        Action (PostgresIo (σ × List RepositoryCall)) Exn ℤ) io = (.ok code, io')
      ∧ callsOf io' = callsOf io ∧ Reported code call :=
  ⟨0, _, rfl, rfl, Or.inl ⟨rfl, hcall⟩⟩

end Answers

/-! ## §5. The commands. -/

/-- The arguments fit the kinds. -/
def Fits (kinds : List ArgumentKind) (rest : List Str) : Prop :=
  List.Forall₂ ArgumentKind.Accepts kinds rest

section Commands

variable {σ : Type} {repository : MarketDataRepository σ} (hreturns : repository.Returns)
  (systemNow : σ → Timestamp × σ)

theorem readTimestamp_reads (value : Str) :
    Reads (readTimestamp (loggedClock systemNow) value) (ArgumentKind.timestamp.Accepts value) := by
  unfold readTimestamp
  by_cases hnow : toUpper value = "NOW".toList
  · rw [if_pos hnow]
    intro io
    refine Or.inl ⟨⟨0, 0, ?_⟩, _, _, rfl, rfl⟩
    unfold parseTimestamp
    rw [if_pos hnow]
  · rw [if_neg hnow]
    have hreads := Reads.ofExcept (σ := σ) (r := parseTimestamp 0 value)
      fun e he => parseTimestamp_error he
    have hiff : (∃ v, parseTimestamp 0 value = .ok v) ↔ ArgumentKind.timestamp.Accepts value := by
      constructor
      · rintro ⟨v, hv⟩
        exact ⟨0, v, hv⟩
      · rintro ⟨now, v, hv⟩
        exact ⟨v, (parseTimestamp_clock 0 now hnow).trans hv⟩
    rw [← propext hiff]
    exact hreads

theorem decimal_reads (value : Str) :
    Reads (Action.ofExcept (Decimal.fromString value) :
      Action (PostgresIo (σ × List RepositoryCall)) Exn Decimal)
      (ArgumentKind.decimal.Accepts value) :=
  Reads.ofExcept fun _ => Decimal.fromString_throwsOnly

theorem boolean_reads (value : Str) :
    Reads (Action.ofExcept (parseBool value) :
      Action (PostgresIo (σ × List RepositoryCall)) Exn Bool)
      (ArgumentKind.boolean.Accepts value) :=
  Reads.ofExcept fun _ => parseBool_error

include hreturns

theorem runInstrument_answers (rest : List Str) :
    Answers (runInstrument repository.logged rest)
      (Fits [.text, .text, .assetClass, .text, .tickDecimals, .boolean] rest)
      "instrument".toList := by
  unfold runInstrument
  split
  · refine Answers.congr ((Reads.ofExcept fun _ => parseAssetClass_error).answers fun _ =>
      (Reads.ofExcept fun _ => parseTickDecimals_error).answers fun _ =>
      (boolean_reads _).answers fun _ => Answers.call (hreturns.upsertInstrument _)
        (fun _ => rfl) fun _ => reports_zero fun _ _ h => by cases h) ?_
    simp [Fits, ArgumentKind.Accepts]
  next h =>
    refine Answers.refuse trivial ?_
    rintro (_ | ⟨_, _ | ⟨_, _ | ⟨_, _ | ⟨_, _ | ⟨_, _ | ⟨_, ⟨⟩⟩⟩⟩⟩⟩⟩)
    exact h _ _ _ _ _ _ rfl

theorem runSource_answers (rest : List Str) :
    Answers (runSource repository.logged rest) (Fits [.text, .text, .text, .boolean] rest)
      "source".toList := by
  unfold runSource
  split
  · refine Answers.congr ((boolean_reads _).answers fun _ =>
      Answers.call (hreturns.upsertDataSource _) (fun _ => rfl) fun _ =>
        reports_zero fun _ _ h => by cases h) ?_
    simp [Fits, ArgumentKind.Accepts]
  next h =>
    refine Answers.refuse trivial ?_
    rintro (_ | ⟨_, _ | ⟨_, _ | ⟨_, _ | ⟨_, ⟨⟩⟩⟩⟩⟩)
    exact h _ _ _ _ rfl

theorem runQuote_answers (rest : List Str) :
    Answers (runQuote repository.logged (loggedClock systemNow) rest)
      (Fits [.text, .text, .timestamp, .decimal, .decimal, .decimal, .decimal, .decimal,
        .nullableDecimal] rest)
      "quote".toList := by
  unfold runQuote
  split
  · refine Answers.congr ((readTimestamp_reads systemNow _).answers fun _ =>
      (decimal_reads _).answers fun _ => (decimal_reads _).answers fun _ =>
      (decimal_reads _).answers fun _ => (decimal_reads _).answers fun _ =>
      (decimal_reads _).answers fun _ =>
      (Reads.ofExcept fun _ => parseNullableDecimal_error).answers fun _ =>
      Answers.call (hreturns.insertQuotes _) (fun _ => rfl) fun _ =>
        reports_zero fun _ _ h => by cases h) ?_
    simp [Fits, ArgumentKind.Accepts]
  next h =>
    refine Answers.refuse trivial ?_
    rintro (_ | ⟨_, _ | ⟨_, _ | ⟨_, _ | ⟨_, _ | ⟨_, _ | ⟨_, _ | ⟨_, _ | ⟨_, _ | ⟨_, ⟨⟩⟩⟩⟩⟩⟩⟩⟩⟩⟩)
    exact h _ _ _ _ _ _ _ _ _ rfl

theorem runTick_answers (rest : List Str) :
    Answers (runTick repository.logged (loggedClock systemNow) rest)
      (Fits [.text, .text, .timestamp, .text, .decimal, .decimal, .side] rest)
      "tick".toList := by
  unfold runTick
  split
  · refine Answers.congr ((readTimestamp_reads systemNow _).answers fun _ =>
      (decimal_reads _).answers fun _ => (decimal_reads _).answers fun _ =>
      (Reads.ofExcept fun _ => parseSide_error).answers fun _ =>
      Answers.call (hreturns.insertTicks _) (fun _ => rfl) fun _ =>
        reports_zero fun _ _ h => by cases h) ?_
    simp [Fits, ArgumentKind.Accepts]
  next h =>
    refine Answers.refuse trivial ?_
    rintro (_ | ⟨_, _ | ⟨_, _ | ⟨_, _ | ⟨_, _ | ⟨_, _ | ⟨_, _ | ⟨_, ⟨⟩⟩⟩⟩⟩⟩⟩⟩)
    exact h _ _ _ _ _ _ _ rfl

theorem runSnapshot_answers (rest : List Str) :
    Answers (runSnapshot repository.logged (loggedClock systemNow) rest)
      (Fits [.text, .text, .timestamp, .decimal, .decimal, .decimal, .decimal, .decimal] rest)
      "snapshot".toList := by
  unfold runSnapshot
  split
  · refine Answers.congr ((readTimestamp_reads systemNow _).answers fun _ =>
      (decimal_reads _).answers fun _ => (decimal_reads _).answers fun _ =>
      (decimal_reads _).answers fun _ => (decimal_reads _).answers fun _ =>
      (decimal_reads _).answers fun _ =>
      Answers.call (hreturns.insertOrderBookSnapshots _) (fun _ => rfl) fun _ =>
        reports_zero fun _ _ h => by cases h) ?_
    simp [Fits, ArgumentKind.Accepts]
  next h =>
    refine Answers.refuse trivial ?_
    rintro (_ | ⟨_, _ | ⟨_, _ | ⟨_, _ | ⟨_, _ | ⟨_, _ | ⟨_, _ | ⟨_, _ | ⟨_, ⟨⟩⟩⟩⟩⟩⟩⟩⟩⟩)
    exact h _ _ _ _ _ _ _ _ rfl

theorem runIndicator_answers (rest : List Str) :
    Answers (runIndicator repository.logged (loggedClock systemNow) rest)
      (Fits [.text, .text, .text, .timestamp, .decimal, .text] rest) "indicator".toList := by
  unfold runIndicator
  split
  · refine Answers.congr ((readTimestamp_reads systemNow _).answers fun _ =>
      (decimal_reads _).answers fun _ =>
      Answers.call (hreturns.insertTechnicalIndicators _) (fun _ => rfl) fun _ =>
        reports_zero fun _ _ h => by cases h) ?_
    simp [Fits, ArgumentKind.Accepts]
  next h =>
    refine Answers.refuse trivial ?_
    rintro (_ | ⟨_, _ | ⟨_, _ | ⟨_, _ | ⟨_, _ | ⟨_, _ | ⟨_, ⟨⟩⟩⟩⟩⟩⟩⟩)
    exact h _ _ _ _ _ _ rfl

theorem runLatestQuote_answers (rest : List Str) :
    Answers (runLatestQuote repository.logged rest) (Fits [.text, .text] rest)
      "latest-quote".toList := by
  unfold runLatestQuote
  split
  next symbol source =>
    refine Answers.congr (Answers.call (hreturns.latestQuote _ _) (fun _ => rfl) ?_)
      (by simp [Fits, ArgumentKind.Accepts])
    intro value io
    -- a missing quote has a status of its own
    cases value with
    | none => exact ⟨3, _, rfl, rfl, Or.inr ⟨rfl, toUpper symbol, toUpper source, rfl⟩⟩
    | some value => exact ⟨0, _, rfl, rfl, Or.inl ⟨rfl, fun _ _ h => by cases h⟩⟩
  next h =>
    refine Answers.refuse trivial ?_
    rintro (_ | ⟨_, _ | ⟨_, ⟨⟩⟩⟩)
    exact h _ _ rfl

omit hreturns in
/-- A command that is tried before the others. -/
theorem answers_command {command name : Str} {kinds : List ArgumentKind} {rest : List Str}
    {x y : Action (PostgresIo (σ × List RepositoryCall)) Exn ℤ} (hname : signature name = some kinds)
    (hx : Answers x (Fits kinds rest) name)
    (hy : command ≠ name →
      Answers y (∃ kinds, signature command = some kinds ∧ Fits kinds rest) command) :
    Answers (if command = name then x else y)
      (∃ kinds, signature command = some kinds ∧ Fits kinds rest) command := by
  by_cases hcommand : command = name
  · subst hcommand
    rw [if_pos rfl]
    refine hx.congr ?_
    constructor
    · intro h
      exact ⟨kinds, hname, h⟩
    · rintro ⟨kinds', hkinds', h⟩
      rw [hname] at hkinds'
      cases hkinds'
      exact h
  · rw [if_neg hcommand]
    exact hy hcommand

/-- **Every command answers by its signature.** -/
theorem runArguments_answers {command : Str} (hhelp : isHelpWord command = false)
    (rest : List Str) :
    Answers (runArguments repository.logged (loggedClock systemNow) (command :: rest))
      (∃ kinds, signature command = some kinds ∧ Fits kinds rest) command := by
  unfold runArguments
  dsimp only
  rw [hhelp, if_neg (by decide)]
  refine answers_command rfl (runInstrument_answers hreturns rest) (fun hinstrument => ?_)
  refine answers_command rfl (runSource_answers hreturns rest) (fun hsource => ?_)
  refine answers_command rfl (runQuote_answers hreturns systemNow rest) (fun hquote => ?_)
  refine answers_command rfl (runTick_answers hreturns systemNow rest) (fun htick => ?_)
  refine answers_command rfl (runSnapshot_answers hreturns systemNow rest) (fun hsnapshot => ?_)
  refine answers_command rfl (runIndicator_answers hreturns systemNow rest) (fun hindicator => ?_)
  refine answers_command rfl (runLatestQuote_answers hreturns rest) (fun hlatest => ?_)
  -- no command of the list
  refine Answers.refuse trivial ?_
  rintro ⟨kinds, hkinds, -⟩
  unfold signature at hkinds
  rw [if_neg hinstrument, if_neg hsource, if_neg hquote, if_neg htick, if_neg hsnapshot,
    if_neg hindicator, if_neg hlatest] at hkinds
  cases hkinds

end Commands

/-! ## §6. The whole run. -/

theorem fits_iff (kinds : List ArgumentKind) (rest : List Str) :
    Fits kinds rest
      ↔ ¬ (rest.length ≠ kinds.length ∨ ∃ p ∈ kinds.zip rest, ¬ p.1.Accepts p.2) := by
  unfold Fits
  rw [List.forall₂_iff_zip]
  constructor
  · rintro ⟨hlength, hall⟩ (hne | ⟨⟨kind, value⟩, hmem, hrejected⟩)
    · exact hne hlength.symm
    · exact hrejected (hall hmem)
  · intro h
    constructor
    · by_contra hne
      exact h (Or.inl (Ne.symm hne))
    · intro kind value hmem
      by_contra hrejected
      exact h (Or.inr ⟨(kind, value), hmem, hrejected⟩)

theorem refused_cons_iff {command : Str} (hhelp : isHelpWord command = false) (rest : List Str) :
    Refused (command :: rest) ↔ ¬ ∃ kinds, signature command = some kinds ∧ Fits kinds rest := by
  unfold Refused
  constructor
  · rintro ⟨-, hnone | ⟨kinds, hkinds, hbad⟩⟩ ⟨kinds', hkinds', hfits⟩
    · rw [hnone] at hkinds'
      cases hkinds'
    · rw [hkinds] at hkinds'
      cases hkinds'
      exact (fits_iff kinds rest).mp hfits hbad
  · intro hno
    refine ⟨hhelp, ?_⟩
    cases hkinds : signature command with
    | none => exact Or.inl rfl
    | some kinds =>
        refine Or.inr ⟨kinds, rfl, ?_⟩
        by_contra hgood
        exact hno ⟨kinds, hkinds, (fits_iff kinds rest).mpr hgood⟩

section Run

variable {σ : Type} (repository : MarketDataRepository σ) (systemNow : σ → Timestamp × σ)

/-- The two `catch` clauses turn a parsing error into the status 2. -/
theorem runPostgres_refuses {args : List Str} {io : PostgresIo (σ × List RepositoryCall)}
    (h : RefusesAt (runArguments repository.logged (loggedClock systemNow) args) io) :
    ∃ io', runPostgres repository.logged (loggedClock systemNow) args io = (.ok 2, io')
      ∧ callsOf io' = callsOf io := by
  obtain ⟨e, io', hrun, he, hcalls⟩ := h
  cases e with
  | invalidArgument what => exact ⟨_, Action.tryCatch_error hrun, hcalls⟩
  | outOfRange what => exact ⟨_, Action.tryCatch_error hrun, hcalls⟩
  | _ => cases he

/-- Help changes nothing but the output. -/
theorem runPostgres_help {args : List Str} (h : AsksHelp args)
    (io : PostgresIo (σ × List RepositoryCall)) :
    runPostgres repository.logged (loggedClock systemNow) args io
      = (.ok 0, { io with out := io.out ++ helpText }) := by
  refine Action.tryCatch_ok ?_
  cases args with
  | nil => rfl
  | cons command rest =>
      have hword : isHelpWord command = true := h
      unfold runArguments
      dsimp only
      rw [if_pos hword]
      rfl

end Run

/-! The three ways it can end. -/

theorem not_refused_of_asksHelp {args : List Str} (h : AsksHelp args) : ¬ Refused args := by
  intro hrefused
  cases args with
  | nil => exact hrefused
  | cons command rest =>
      have hword : isHelpWord command = true := h
      rw [hrefused.1] at hword
      cases hword

theorem Outcome.help {args : List Str} (h : AsksHelp args) : Outcome args 0 [] where
  status := Or.inl rfl
  refused_iff := iff_of_false (by decide) (not_refused_of_asksHelp h)
  refused_untouched := fun _ => rfl
  help_untouched := fun _ => ⟨rfl, rfl⟩
  one_call := fun _ hno => absurd h hno
  not_found_iff := by
    refine iff_of_false (by decide) ?_
    rintro ⟨symbol, source, hcall⟩
    cases hcall

theorem Outcome.refusal {args : List Str} (hhelp : ¬ AsksHelp args) (h : Refused args) :
    Outcome args 2 [] where
  status := Or.inr (Or.inl rfl)
  refused_iff := iff_of_true rfl h
  refused_untouched := fun _ => rfl
  help_untouched := fun hyes => absurd hyes hhelp
  one_call := fun hno => absurd h hno
  not_found_iff := by
    refine iff_of_false (by decide) ?_
    rintro ⟨symbol, source, hcall⟩
    cases hcall

/-- The one call decides the status. -/
theorem Outcome.answer {command : Str} {rest : List Str} {code : ℤ} {call : RepositoryCall}
    (hhelp : ¬ AsksHelp (command :: rest)) (h : ¬ Refused (command :: rest))
    (hcommand : call.command = command) (hreported : Reported code call) :
    Outcome (command :: rest) code [call] := by
  have hcode : code = 0 ∨ code = 3 := hreported.imp And.left And.left
  exact
    { status := by omega
      refused_iff := iff_of_false (by omega) h
      refused_untouched := fun hrefused => absurd hrefused h
      help_untouched := fun hyes => absurd hyes hhelp
      one_call := fun _ _ => ⟨call, rfl, congrArg some hcommand.symm⟩
      not_found_iff := by
        rcases hreported with ⟨rfl, hother⟩ | ⟨rfl, symbol, source, rfl⟩
        · refine iff_of_false (by decide) ?_
          rintro ⟨symbol, source, hcall⟩
          exact hother symbol source (List.cons.inj hcall).1
        · exact iff_of_true rfl ⟨symbol, source, rfl⟩ }

/-- **`run` never touches the repository on bad input and throws no parsing
error**, whatever the arguments, over any repository that does not throw. -/
theorem runPostgres_outcome {σ : Type} (repository : MarketDataRepository σ)
    (hreturns : repository.Returns) (systemNow : σ → Timestamp × σ) (args : List Str) (w : σ)
    (out err : Str) :
    ∃ code calls w' out' err',
      runPostgres repository.logged (loggedClock systemNow) args
        { outside := (w, []), out := out, err := err }
        = (.ok code, { outside := (w', calls), out := out', err := err' })
      ∧ Outcome args code calls := by
  by_cases hhelp : AsksHelp args
  · exact ⟨0, [], w, out ++ helpText, err, runPostgres_help repository systemNow hhelp _,
      Outcome.help hhelp⟩
  obtain ⟨command, rest, rfl⟩ : ∃ command rest, args = command :: rest := by
    cases args with
    | nil => exact absurd trivial hhelp
    | cons command rest => exact ⟨command, rest, rfl⟩
  have hword : isHelpWord command = false := Bool.eq_false_of_not_eq_true hhelp
  have hrefused := refused_cons_iff hword rest
  -- over the log that starts empty, one call or none
  rcases runArguments_answers hreturns systemNow hword rest
      { outside := (w, []), out := out, err := err } with
    ⟨hfits, code, call, io', hrun, hcalls, hcommand, hreported⟩ | ⟨hno, hrefuses⟩
  · have hlog : io'.outside.2 = [call] := hcalls
    have hnot : ¬ Refused (command :: rest) := fun h => hrefused.mp h hfits
    refine ⟨code, [call], io'.outside.1, io'.out, io'.err, ?_,
      Outcome.answer hhelp hnot hcommand hreported⟩
    rw [← hlog]
    exact Action.tryCatch_ok hrun
  · obtain ⟨io', hrun, hcalls⟩ := runPostgres_refuses repository systemNow hrefuses
    have hlog : io'.outside.2 = [] := hcalls
    have hend : io' = { outside := (io'.outside.1, []), out := io'.out, err := io'.err } := by
      rw [← hlog]
    exact ⟨2, [], io'.outside.1, io'.out, io'.err, hrun.trans (by rw [← hend]),
      Outcome.refusal hhelp (hrefused.mpr hno)⟩

/-- A repository that stores nothing. -/
def emptyRepository : MarketDataRepository Unit where
  upsertInstrument _ := pure ()
  upsertDataSource _ := pure ()
  insertQuotes quotes := pure ⟨quotes.length, quotes.length⟩
  insertTicks ticks := pure ⟨ticks.length, ticks.length⟩
  insertOrderBookSnapshots snapshots := pure ⟨snapshots.length, snapshots.length⟩
  insertTechnicalIndicators indicators := pure ⟨indicators.length, indicators.length⟩
  latestQuote _ _ := pure none

theorem emptyRepository_returns : emptyRepository.Returns where
  upsertInstrument := fun _ _ => ⟨_, rfl⟩
  upsertDataSource := fun _ _ => ⟨_, rfl⟩
  insertQuotes := fun _ _ => ⟨_, rfl⟩
  insertTicks := fun _ _ => ⟨_, rfl⟩
  insertOrderBookSnapshots := fun _ _ => ⟨_, rfl⟩
  insertTechnicalIndicators := fun _ _ => ⟨_, rfl⟩
  latestQuote := fun _ _ _ => ⟨_, rfl⟩

/-- A quote of a time stamp. -/
def quoteLine (timestamp : Str) : List Str :=
  ["quote".toList, "IBM".toList, "FEED".toList, timestamp, "100".toList, "99.5".toList,
    "101".toList, "99".toList, "1000".toList, "-".toList]

/-- The command line over that repository. -/
def runEmpty (args : List Str) : Except Exn ℤ × PostgresIo (Unit × List RepositoryCall) :=
  runPostgres emptyRepository.logged (loggedClock fun w => (0, w)) args
    { outside := ((), []), out := [], err := [] }

/-- A day that does not exist is read as the one it runs over to, and the quote
is inserted; a date without a time of day is refused. -/
theorem emptyRepository_outcome :
    (∃ code calls w' out' err', runEmpty (quoteLine "2026-02-30T00:00:00Z".toList)
        = (.ok code, { outside := (w', calls), out := out', err := err' })
      ∧ Outcome (quoteLine "2026-02-30T00:00:00Z".toList) code calls)
    ∧ (runEmpty (quoteLine "2026-02-30T00:00:00Z".toList)).1.toOption = some 0
    ∧ (runEmpty (quoteLine "2026-02-30T00:00:00Z".toList)).2.outside.2.length = 1
    ∧ (∃ code calls w' out' err', runEmpty (quoteLine "2026-07-14".toList)
        = (.ok code, { outside := (w', calls), out := out', err := err' })
      ∧ Outcome (quoteLine "2026-07-14".toList) code calls)
    ∧ (runEmpty (quoteLine "2026-07-14".toList)).1.toOption = some 2
    ∧ (runEmpty (quoteLine "2026-07-14".toList)).2.outside.2 = [] :=
  ⟨runPostgres_outcome emptyRepository emptyRepository_returns _ _ () [] [],
    by decide +kernel, by decide +kernel,
    runPostgres_outcome emptyRepository emptyRepository_returns _ _ () [] [],
    by decide +kernel, List.length_eq_zero_iff.mp (by decide +kernel)⟩

end FinCore.Cli

/-
  FinCore.Cli.RefusedLines
  ────────────────────────
  The lines the command loop turns down.

  `Refuses` says when a line is blank, unknown or refused for its arguments, from
  what each command takes.  Such a line is answered before anything else is done
  (`runLine_refused`), so a session goes on after it as if it had not been
  typed.
-/
import FinCore.Cli.OutputIndependence
import FinCore.Cxx.LetterCase

namespace FinCore.Cli

open FinCore.Cxx

/-! ## §1. What the commands take. -/

namespace Grammar

def commands : List Str :=
  ["help".toList, "symbols".toList, "fetch".toList, "book".toList, "lookup".toList, "watch".toList,
    "poll".toList, "redis".toList, "stats".toList, "exit".toList, "quit".toList]

/-- The least and the greatest number of arguments; the other commands take
any. -/
def argumentCounts : List (Str × ℕ × ℕ) :=
  [("symbols".toList, 0, 0), ("fetch".toList, 1, 1), ("book".toList, 1, 1), ("lookup".toList, 1, 2),
    ("watch".toList, 1, 3), ("poll".toList, 0, 2), ("redis".toList, 1, 1), ("stats".toList, 0, 1)]

/-- Which argument is a number, under which name and in which bounds. -/
def numbers : List (Str × ℕ × Str × ℕ × ℕ) :=
  [("lookup".toList, 1, "COUNT".toList, 1, 100000000),
    ("watch".toList, 1, "COUNT".toList, 1, 100000),
    ("watch".toList, 2, "INTERVAL_MS".toList, 0, 3600000),
    ("poll".toList, 0, "COUNT".toList, 1, 100000),
    ("poll".toList, 1, "SECONDS".toList, 0, 86400)]

/-- Which commands take a symbol first, and what else they take in its place. -/
def symbols : List (Str × List Str) :=
  [("fetch".toList, ["ALL".toList]), ("book".toList, []), ("lookup".toList, []),
    ("watch".toList, ["ALL".toList])]

/-- Which commands take an action first. -/
def actions : List (Str × List Str) :=
  [("redis".toList, ["STATUS".toList]), ("stats".toList, ["LAST".toList, "RESET".toList])]

end Grammar

/-- A command that is unknown, or refused for its arguments. -/
inductive RefusesCommand (st : CliState) (command : Str) (args : FinCoreCli.Args) : Prop where
  | unknown : command ∉ Grammar.commands → RefusesCommand st command args
  | count (least most : ℕ) : (command, least, most) ∈ Grammar.argumentCounts →
      args.length < least ∨ most < args.length → RefusesCommand st command args
  /-- Malformed, or out of range. -/
  | number (i : ℕ) (name : Str) (minimum maximum : ℕ) (text : Str) :
      (command, i, name, minimum, maximum) ∈ Grammar.numbers → args[i]? = some text →
      (∀ n, FinCoreCli.parseNumber text name minimum maximum ≠ .ok n) →
      RefusesCommand st command args
  /-- Not configured. -/
  | symbol (others : List Str) (arg : Str) : (command, others) ∈ Grammar.symbols →
      args[0]? = some arg → normalizeSymbol arg ∉ others →
      FinCoreCli.isConfigured st (normalizeSymbol arg) = false → RefusesCommand st command args
  | action (known : List Str) (arg : Str) : (command, known) ∈ Grammar.actions →
      args[0]? = some arg → normalizeSymbol arg ∉ known → RefusesCommand st command args

/-- A line that is blank, or whose command is refused. -/
inductive Refuses (st : CliState) (line : Str) : Prop where
  | blank : FinCoreCli.tokenize line = [] → Refuses st line
  | command (first : Str) (args : FinCoreCli.Args) : FinCoreCli.tokenize line = first :: args →
      RefusesCommand st (FinCoreCli.commandName first) args → Refuses st line

namespace FinCoreCli

variable {σ : Type} (cli : FinCoreCli σ) (s : σ × CliState)

/-! ## §2. A command goes on only when it accepts its arguments. -/

/-- A number is in the bounds, or the command declines. -/
theorem parseNumber_declines {α : Type} (text name : Str) (minimum maximum : ℕ)
    (f : ℕ → Action (σ × CliState) Exn α) :
    Action.Declines (Action.ofExcept (parseNumber text name minimum maximum) >>= f) s
      ∨ ∃ n, parseNumber text name minimum maximum = .ok n := by
  cases hparse : parseNumber text name minimum maximum with
  | ok n => exact Or.inr ⟨n, rfl⟩
  | error e => exact Or.inl (Action.Declines.bind ⟨e, rfl⟩ f)

theorem handleSymbols_accepts (args : Args) :
    Action.Declines (cli.handleSymbols args) s ∨ args.length = 0 := by
  cases args with
  | nil => exact Or.inr rfl
  | cons first rest => exact Or.inl (Action.Declines.throw _ s)

theorem fetchSymbol_declines {rawSymbol : Str} {printData printMetrics : Bool}
    (h : isConfigured s.2 (normalizeSymbol rawSymbol) = false) :
    Action.Declines (cli.fetchSymbol rawSymbol printData printMetrics) s := by
  refine Action.Declines.after (a := s) rfl ?_
  rw [if_pos h]
  exact Action.Declines.throw _ s

theorem handleFetch_accepts (args : Args) :
    Action.Declines (cli.handleFetch args) s
      ∨ ∃ arg, args = [arg] ∧ (normalizeSymbol arg = "ALL".toList
          ∨ isConfigured s.2 (normalizeSymbol arg) = true) := by
  rcases args with _ | ⟨arg, _ | ⟨second, rest⟩⟩
  · exact Or.inl (Action.Declines.throw _ s)
  · by_cases hall : normalizeSymbol arg = "ALL".toList
    · exact Or.inr ⟨arg, rfl, Or.inl hall⟩
    cases hconfigured : isConfigured s.2 (normalizeSymbol arg) with
    | true => exact Or.inr ⟨arg, rfl, Or.inr hconfigured⟩
    | false =>
        -- the configuration is checked in the fetch, which folds the name again
        have hagain : isConfigured s.2 (normalizeSymbol (normalizeSymbol arg)) = false := by
          rw [normalizeSymbol, normalizeSymbol, toUpper_idem]
          exact hconfigured
        refine Or.inl ?_
        show Action.Declines (if _ then _ else _) s
        rw [if_neg hall]
        exact (cli.fetchSymbol_declines s hagain).bind _
  · exact Or.inl (Action.Declines.throw _ s)

theorem handleBook_accepts (args : Args) :
    Action.Declines (cli.handleBook args) s
      ∨ ∃ arg, args = [arg] ∧ isConfigured s.2 (normalizeSymbol arg) = true := by
  rcases args with _ | ⟨arg, _ | ⟨second, rest⟩⟩
  · exact Or.inl (Action.Declines.throw _ s)
  · cases hconfigured : isConfigured s.2 (normalizeSymbol arg) with
    | true => exact Or.inr ⟨arg, rfl, hconfigured⟩
    | false =>
        refine Or.inl (Action.Declines.after (a := s) rfl ?_)
        rw [if_pos hconfigured]
        exact Action.Declines.throw _ s
  · exact Or.inl (Action.Declines.throw _ s)

/-- The first of some arguments, if there is one, is a number in the bounds. -/
def ReadsNumber (args : Args) (name : Str) (minimum maximum : ℕ) : Prop :=
  ∀ text, args[0]? = some text → ∃ n, parseNumber text name minimum maximum = .ok n

theorem readsNumber_nil (name : Str) (minimum maximum : ℕ) :
    ReadsNumber [] name minimum maximum := by
  intro text htext
  cases htext

theorem readsNumber_cons {text name : Str} {rest : Args} {minimum maximum n : ℕ}
    (h : parseNumber text name minimum maximum = .ok n) :
    ReadsNumber (text :: rest) name minimum maximum := by
  intro text' htext
  cases htext
  exact ⟨n, h⟩

theorem handleLookup_accepts (args : Args) :
    Action.Declines (cli.handleLookup args) s
      ∨ ∃ arg rest, args = arg :: rest ∧ rest.length ≤ 1
          ∧ ReadsNumber rest "COUNT".toList 1 100000000
          ∧ isConfigured s.2 (normalizeSymbol arg) = true := by
  rcases args with _ | ⟨arg, _ | ⟨text, _ | ⟨third, rest⟩⟩⟩
  · exact Or.inl (Action.Declines.throw _ s)
  · cases hconfigured : isConfigured s.2 (normalizeSymbol arg) with
    | true => exact Or.inr ⟨arg, [], rfl, Nat.zero_le 1, readsNumber_nil _ _ _, hconfigured⟩
    | false =>
        refine Or.inl (Action.Declines.after (a := 1000000) rfl ?_)
        refine Action.Declines.after (a := s) rfl ?_
        rw [if_pos hconfigured]
        exact Action.Declines.throw _ s
  · rcases parseNumber_declines s text "COUNT".toList 1 100000000 _ with hdeclines | ⟨n, hn⟩
    · exact Or.inl hdeclines
    cases hconfigured : isConfigured s.2 (normalizeSymbol arg) with
    | true => exact Or.inr ⟨arg, [text], rfl, Nat.le_refl 1, readsNumber_cons hn, hconfigured⟩
    | false =>
        -- the count has been read, and nothing but that
        refine Or.inl (Action.Declines.after (a := n) (by rw [hn]; rfl) ?_)
        refine Action.Declines.after (a := s) rfl ?_
        rw [if_pos hconfigured]
        exact Action.Declines.throw _ s
  · exact Or.inl (Action.Declines.throw _ s)

/-- The last check of `watch`. -/
theorem watchTarget_declines (target : Symbol) (x : Action (σ × CliState) Exn Unit) :
    Action.Declines (do
        let s ← Action.get
        if target ≠ "ALL".toList ∧ isConfigured s.2 target = false then throw (notConfigured target)
        else x) s
      ∨ target = "ALL".toList ∨ isConfigured s.2 target = true := by
  by_cases hall : target = "ALL".toList
  · exact Or.inr (Or.inl hall)
  cases hconfigured : isConfigured s.2 target with
  | true => exact Or.inr (Or.inr rfl)
  | false =>
      refine Or.inl (Action.Declines.after (a := s) rfl ?_)
      rw [if_pos ⟨hall, hconfigured⟩]
      exact Action.Declines.throw _ s

theorem handleWatch_accepts (args : Args) :
    Action.Declines (cli.handleWatch args) s
      ∨ ∃ arg rest, args = arg :: rest ∧ rest.length ≤ 2
          ∧ ReadsNumber rest "COUNT".toList 1 100000
          ∧ ReadsNumber rest.tail "INTERVAL_MS".toList 0 3600000
          ∧ (normalizeSymbol arg = "ALL".toList
            ∨ isConfigured s.2 (normalizeSymbol arg) = true) := by
  -- none, one, two, three and more arguments
  rcases args with _ | ⟨arg, _ | ⟨count, _ | ⟨interval, _ | ⟨fourth, rest⟩⟩⟩⟩
  · exact Or.inl (Action.Declines.throw _ s)
  · rcases watchTarget_declines s (normalizeSymbol arg) _ with hdeclines | htarget
    · refine Or.inl (Action.Declines.after (a := 10) rfl ?_)
      exact Action.Declines.after (a := 1000) rfl hdeclines
    · exact Or.inr ⟨arg, [], rfl, Nat.zero_le 2, readsNumber_nil _ _ _, readsNumber_nil _ _ _,
        htarget⟩
  · rcases parseNumber_declines s count "COUNT".toList 1 100000 _ with hdeclines | ⟨n, hn⟩
    · exact Or.inl hdeclines
    rcases watchTarget_declines s (normalizeSymbol arg) _ with hdeclines | htarget
    · refine Or.inl (Action.Declines.after (a := n) (by rw [hn]; rfl) ?_)
      exact Action.Declines.after (a := 1000) rfl hdeclines
    · exact Or.inr ⟨arg, [count], rfl, by simp, readsNumber_cons hn, readsNumber_nil _ _ _,
        htarget⟩
  · rcases parseNumber_declines s count "COUNT".toList 1 100000 _ with hdeclines | ⟨n, hn⟩
    · exact Or.inl hdeclines
    rcases parseNumber_declines s interval "INTERVAL_MS".toList 0 3600000 _ with hdeclines | ⟨m, hm⟩
    · exact Or.inl (Action.Declines.after (a := n) (by rw [hn]; rfl) hdeclines)
    rcases watchTarget_declines s (normalizeSymbol arg) _ with hdeclines | htarget
    · refine Or.inl (Action.Declines.after (a := n) (by rw [hn]; rfl) ?_)
      exact Action.Declines.after (a := m) (by rw [hm]; rfl) hdeclines
    · exact Or.inr ⟨arg, [count, interval], rfl, by simp, readsNumber_cons hn,
        readsNumber_cons hm, htarget⟩
  · exact Or.inl (Action.Declines.throw _ s)

theorem handlePoll_accepts (args : Args) :
    Action.Declines (cli.handlePoll args) s
      ∨ args.length ≤ 2 ∧ ReadsNumber args "COUNT".toList 1 100000
          ∧ ReadsNumber args.tail "SECONDS".toList 0 86400 := by
  rcases args with _ | ⟨count, _ | ⟨seconds, _ | ⟨third, rest⟩⟩⟩
  · exact Or.inr ⟨by simp, readsNumber_nil _ _ _, readsNumber_nil _ _ _⟩
  · rcases parseNumber_declines s count "COUNT".toList 1 100000 _ with hdeclines | ⟨n, hn⟩
    · exact Or.inl hdeclines
    · exact Or.inr ⟨by simp, readsNumber_cons hn, readsNumber_nil _ _ _⟩
  · rcases parseNumber_declines s count "COUNT".toList 1 100000 _ with hdeclines | ⟨n, hn⟩
    · exact Or.inl hdeclines
    rcases parseNumber_declines s seconds "SECONDS".toList 0 86400 _ with hdeclines | ⟨m, hm⟩
    · exact Or.inl (Action.Declines.after (a := n) (by rw [hn]; rfl) hdeclines)
    · exact Or.inr ⟨by simp, readsNumber_cons hn, readsNumber_cons hm⟩
  · exact Or.inl (Action.Declines.throw _ s)

theorem handleRedis_accepts (args : Args) :
    Action.Declines (cli.handleRedis args) s
      ∨ ∃ arg, args = [arg] ∧ normalizeSymbol arg = "STATUS".toList := by
  rcases args with _ | ⟨arg, _ | ⟨second, rest⟩⟩
  · exact Or.inl (Action.Declines.throw _ s)
  · by_cases hstatus : normalizeSymbol arg = "STATUS".toList
    · exact Or.inr ⟨arg, rfl, hstatus⟩
    · refine Or.inl ?_
      show Action.Declines (if _ then _ else _) s
      rw [if_pos hstatus]
      exact Action.Declines.throw _ s
  · exact Or.inl (Action.Declines.throw _ s)

theorem handleStats_accepts (args : Args) :
    Action.Declines (handleStats args) s
      ∨ args = [] ∨ ∃ arg, args = [arg] ∧ (normalizeSymbol arg = "LAST".toList
          ∨ normalizeSymbol arg = "RESET".toList) := by
  rcases args with _ | ⟨arg, _ | ⟨second, rest⟩⟩
  · exact Or.inr (Or.inl rfl)
  · by_cases hlast : normalizeSymbol arg = "LAST".toList
    · exact Or.inr (Or.inr ⟨arg, rfl, Or.inl hlast⟩)
    by_cases hreset : normalizeSymbol arg = "RESET".toList
    · exact Or.inr (Or.inr ⟨arg, rfl, Or.inr hreset⟩)
    refine Or.inl ?_
    show Action.Declines (if _ then _ else if _ then _ else _) s
    rw [if_neg hlast, if_neg hreset]
    exact Action.Declines.throw _ s
  · exact Or.inl (Action.Declines.throw _ s)

/-! ## §3. Refused lines. -/

theorem runCommand_unknown {command : Str} {args : Args} (h : command ∉ Grammar.commands) :
    cli.runCommand command args = emit (.unknownCommand command) := by
  simp only [Grammar.commands, List.mem_cons, List.not_mem_nil, or_false, not_or] at h
  obtain ⟨hhelp, hsymbols, hfetch, hbook, hlookup, hwatch, hpoll, hredis, hstats, hexit, hquit⟩ := h
  have hleaves : ¬ (command = "exit".toList ∨ command = "quit".toList) := not_or.mpr ⟨hexit, hquit⟩
  unfold runCommand
  rw [if_neg hhelp, if_neg hsymbols, if_neg hfetch, if_neg hbook, if_neg hlookup, if_neg hwatch,
    if_neg hpoll, if_neg hredis, if_neg hstats, if_neg hleaves]

section Declines

variable {command : Str} {args : Args}

theorem count_declines {least most : ℕ}
    (hmem : (command, least, most) ∈ Grammar.argumentCounts)
    (hcount : args.length < least ∨ most < args.length) :
    Action.Declines (cli.runCommand command args) s := by
  simp only [Grammar.argumentCounts, List.mem_cons, List.not_mem_nil, or_false,
    Prod.mk.injEq] at hmem
  rcases hmem with ⟨rfl, rfl, rfl⟩ | ⟨rfl, rfl, rfl⟩ | ⟨rfl, rfl, rfl⟩ | ⟨rfl, rfl, rfl⟩
    | ⟨rfl, rfl, rfl⟩ | ⟨rfl, rfl, rfl⟩ | ⟨rfl, rfl, rfl⟩ | ⟨rfl, rfl, rfl⟩
  · refine (cli.handleSymbols_accepts s args).resolve_right ?_
    omega
  · refine (cli.handleFetch_accepts s args).resolve_right ?_
    rintro ⟨arg, rfl, -⟩
    simp at hcount
  · refine (cli.handleBook_accepts s args).resolve_right ?_
    rintro ⟨arg, rfl, -⟩
    simp at hcount
  · refine (cli.handleLookup_accepts s args).resolve_right ?_
    rintro ⟨arg, rest, rfl, hlength, -⟩
    rw [List.length_cons] at hcount
    omega
  · refine (cli.handleWatch_accepts s args).resolve_right ?_
    rintro ⟨arg, rest, rfl, hlength, -⟩
    rw [List.length_cons] at hcount
    omega
  · refine (cli.handlePoll_accepts s args).resolve_right ?_
    rintro ⟨hlength, -⟩
    omega
  · refine (cli.handleRedis_accepts s args).resolve_right ?_
    rintro ⟨arg, rfl, -⟩
    simp at hcount
  · refine (handleStats_accepts s args).resolve_right ?_
    rintro (rfl | ⟨arg, rfl, -⟩)
    · simp at hcount
    · simp at hcount

theorem number_declines {i minimum maximum : ℕ} {name text : Str}
    (hmem : (command, i, name, minimum, maximum) ∈ Grammar.numbers) (htext : args[i]? = some text)
    (hnumber : ∀ n, parseNumber text name minimum maximum ≠ .ok n) :
    Action.Declines (cli.runCommand command args) s := by
  -- a number that is read contradicts the refusal
  have hread : ∀ {arguments : Args}, ReadsNumber arguments name minimum maximum →
      arguments[0]? = some text → False := by
    intro arguments hreads hfirst
    obtain ⟨n, hn⟩ := hreads text hfirst
    exact hnumber n hn
  simp only [Grammar.numbers, List.mem_cons, List.not_mem_nil, or_false, Prod.mk.injEq] at hmem
  rcases hmem with ⟨rfl, rfl, rfl, rfl, rfl⟩ | ⟨rfl, rfl, rfl, rfl, rfl⟩
    | ⟨rfl, rfl, rfl, rfl, rfl⟩ | ⟨rfl, rfl, rfl, rfl, rfl⟩ | ⟨rfl, rfl, rfl, rfl, rfl⟩
  · refine (cli.handleLookup_accepts s args).resolve_right ?_
    rintro ⟨arg, rest, rfl, -, hcount, -⟩
    exact hread hcount htext
  · refine (cli.handleWatch_accepts s args).resolve_right ?_
    rintro ⟨arg, rest, rfl, -, hcount, -, -⟩
    exact hread hcount htext
  · refine (cli.handleWatch_accepts s args).resolve_right ?_
    rintro ⟨arg, rest, rfl, -, -, hinterval, -⟩
    exact hread hinterval (List.getElem?_tail.trans htext)
  · refine (cli.handlePoll_accepts s args).resolve_right ?_
    rintro ⟨-, hcount, -⟩
    exact hread hcount htext
  · refine (cli.handlePoll_accepts s args).resolve_right ?_
    rintro ⟨-, -, hseconds⟩
    exact hread hseconds (List.getElem?_tail.trans htext)

theorem symbol_declines {others : List Str} {arg : Str}
    (hmem : (command, others) ∈ Grammar.symbols) (harg : args[0]? = some arg)
    (hother : normalizeSymbol arg ∉ others)
    (hconfigured : isConfigured s.2 (normalizeSymbol arg) = false) :
    Action.Declines (cli.runCommand command args) s := by
  have hunconfigured : ¬ isConfigured s.2 (normalizeSymbol arg) = true := by
    rw [hconfigured]
    decide
  simp only [Grammar.symbols, List.mem_cons, List.not_mem_nil, or_false, Prod.mk.injEq] at hmem
  rcases hmem with ⟨rfl, rfl⟩ | ⟨rfl, rfl⟩ | ⟨rfl, rfl⟩ | ⟨rfl, rfl⟩
  · refine (cli.handleFetch_accepts s args).resolve_right ?_
    rintro ⟨first, rfl, htarget⟩
    cases harg
    rcases htarget with hall | htarget
    · -- `all` is no symbol for `fetch` and `watch`
      exact hother (List.mem_singleton.mpr hall)
    · exact hunconfigured htarget
  · refine (cli.handleBook_accepts s args).resolve_right ?_
    rintro ⟨first, rfl, htarget⟩
    cases harg
    exact hunconfigured htarget
  · refine (cli.handleLookup_accepts s args).resolve_right ?_
    rintro ⟨first, rest, rfl, -, -, htarget⟩
    cases harg
    exact hunconfigured htarget
  · refine (cli.handleWatch_accepts s args).resolve_right ?_
    rintro ⟨first, rest, rfl, -, -, -, htarget⟩
    cases harg
    rcases htarget with hall | htarget
    · exact hother (List.mem_singleton.mpr hall)
    · exact hunconfigured htarget

theorem action_declines {known : List Str} {arg : Str}
    (hmem : (command, known) ∈ Grammar.actions) (harg : args[0]? = some arg)
    (hunknown : normalizeSymbol arg ∉ known) :
    Action.Declines (cli.runCommand command args) s := by
  simp only [Grammar.actions, List.mem_cons, List.not_mem_nil, or_false, Prod.mk.injEq] at hmem
  rcases hmem with ⟨rfl, rfl⟩ | ⟨rfl, rfl⟩
  · refine (cli.handleRedis_accepts s args).resolve_right ?_
    rintro ⟨first, rfl, hstatus⟩
    cases harg
    exact hunknown (List.mem_singleton.mpr hstatus)
  · refine (handleStats_accepts s args).resolve_right ?_
    rintro (rfl | ⟨first, rfl, hlast | hreset⟩)
    · cases harg
    · cases harg
      rw [hlast] at hunknown
      exact hunknown List.mem_cons_self
    · cases harg
      rw [hreset] at hunknown
      exact hunknown (List.mem_cons_of_mem _ List.mem_cons_self)

/-- A command that is refused prints that it is unknown, or throws before it has
done anything. -/
theorem runCommand_refused (h : RefusesCommand s.2 command args) :
    cli.runCommand command args s = emit (.unknownCommand command) s
      ∨ Action.Declines (cli.runCommand command args) s := by
  cases h with
  | unknown hunknown => exact Or.inl (congrFun (cli.runCommand_unknown hunknown) s)
  | count least most hmem hcount => exact Or.inr (cli.count_declines s hmem hcount)
  | number i name minimum maximum text hmem htext hnumber =>
      exact Or.inr (cli.number_declines s hmem htext hnumber)
  | symbol others arg hmem harg hother hconfigured =>
      exact Or.inr (cli.symbol_declines s hmem harg hother hconfigured)
  | action known arg hmem harg hunknown =>
      exact Or.inr (cli.action_declines s hmem harg hunknown)

end Declines

/-- It does not end the session either: the words that do take any arguments. -/
theorem isExit_of_refused {st : CliState} {command : Str} {args : Args}
    (h : RefusesCommand st command args) : isExit command = false := by
  by_contra hexit
  rw [Bool.not_eq_false, isExit, decide_eq_true_eq] at hexit
  cases h with
  | unknown hunknown => rcases hexit with rfl | rfl <;> exact hunknown (by decide)
  | count least most hmem _ =>
      rcases hexit with rfl | rfl <;> simp [Grammar.argumentCounts] at hmem
  | number i name minimum maximum text hmem _ _ =>
      rcases hexit with rfl | rfl <;> simp [Grammar.numbers] at hmem
  | symbol others arg hmem _ _ _ => rcases hexit with rfl | rfl <;> simp [Grammar.symbols] at hmem
  | action known arg hmem _ _ => rcases hexit with rfl | rfl <;> simp [Grammar.actions] at hmem

theorem endsLoop_of_refuses {st : CliState} {line : Str} (h : Refuses st line) :
    endsLoop line = false := by
  unfold endsLoop
  cases h with
  | blank hblank => rw [hblank]
  | command first args htokens hrefused =>
      rw [htokens]
      exact isExit_of_refused hrefused

/-- **A refused line is answered with a message, if at all, and the loop goes
on.** -/
theorem runLine_refused {line : Str} (h : Refuses s.2 line) :
    ∃ printed : List Event, cli.runLine line s
      = (.ok true, (s.1, { s.2 with events := s.2.events ++ printed })) := by
  cases h with
  | blank hblank =>
      refine ⟨[], ?_⟩
      unfold runLine handleLine
      rw [hblank, List.append_nil]
      rfl
  | command first args htokens hrefused =>
      have hline : cli.handleLine line = (do
          cli.runCommand (commandName first) args
          return !isExit (commandName first)) := by
        unfold handleLine
        rw [htokens]
      -- an unknown command is printed, anything else thrown and printed by the loop
      rcases cli.runCommand_refused s hrefused with hunknown | ⟨e, hthrows⟩
      · refine ⟨[.unknownCommand (commandName first)], ?_⟩
        refine Action.tryCatch_ok ?_
        rw [hline, Action.bind_ok hunknown, isExit_of_refused hrefused]
        rfl
      · refine ⟨[.error e], ?_⟩
        unfold runLine
        rw [hline, Action.tryCatch_error (Action.bind_error hthrows)]
        rfl

/-! ## §4. Letter case. -/

theorem tokenize_toUpper (line : Str) : tokenize (toUpper line) = (tokenize line).map toUpper := by
  have hkept : ((· ≠ []) : Str → Bool) ∘ toUpper = ((· ≠ []) : Str → Bool) := by
    funext word
    simp [toUpper]
  unfold tokenize
  rw [splitOnP_toUpper isSpace_of_isAlpha, List.filter_map]
  exact congrArg (fun p => ((line.splitOnP isSpace).filter p).map toUpper) hkept

theorem parseNumber_toUpper (text name : Str) (minimum maximum : ℕ) :
    parseNumber (toUpper text) name minimum maximum = parseNumber text name minimum maximum := by
  have hscan : stoull (toUpper text) = stoull text := by
    unfold stoull
    rw [scanInteger_toUpper]
  unfold parseNumber
  rw [hscan, toUpper, List.length_map]

end FinCoreCli

section LetterCase

variable {st : CliState}

/-- Two words that differ in letter case only are the same number, symbol or
action. -/
theorem RefusesCommand.letterCase {command : Str} {args args' : FinCoreCli.Args}
    (hargs : args.map toUpper = args'.map toUpper) (h : RefusesCommand st command args) :
    RefusesCommand st command args' := by
  have hlength : args.length = args'.length := by
    have hmapped := congrArg List.length hargs
    rwa [List.length_map, List.length_map] at hmapped
  -- a word at an index has its like at the same index
  have hword : ∀ {i : ℕ} {arg : Str}, args[i]? = some arg →
      ∃ arg', args'[i]? = some arg' ∧ toUpper arg' = toUpper arg := by
    intro i arg harg
    have hmapped := congrArg (fun words : List Str => words[i]?) hargs
    simp only [List.getElem?_map, harg, Option.map_some] at hmapped
    exact Option.map_eq_some_iff.mp hmapped.symm
  cases h with
  | unknown hunknown => exact .unknown hunknown
  | count least most hmem hcount => exact .count least most hmem (by rwa [← hlength])
  | number i name minimum maximum text hmem htext hnumber =>
      obtain ⟨text', htext', hsame⟩ := hword htext
      refine .number i name minimum maximum text' hmem htext' ?_
      -- numbers have no letters that a conversion reads
      rw [← FinCoreCli.parseNumber_toUpper, hsame, FinCoreCli.parseNumber_toUpper]
      exact hnumber
  | symbol others arg hmem harg hother hconfigured =>
      obtain ⟨arg', harg', hsame⟩ := hword harg
      have hname : normalizeSymbol arg' = normalizeSymbol arg := hsame
      refine .symbol others arg' hmem harg' ?_ ?_
      · rwa [hname]
      · rwa [hname]
  | action known arg hmem harg hunknown =>
      obtain ⟨arg', harg', hsame⟩ := hword harg
      have hname : normalizeSymbol arg' = normalizeSymbol arg := hsame
      exact .action known arg' hmem harg' (by rwa [hname])

theorem Refuses.letterCase {line line' : Str} (hline : toUpper line = toUpper line')
    (h : Refuses st line) : Refuses st line' := by
  have hwords :
      (FinCoreCli.tokenize line).map toUpper = (FinCoreCli.tokenize line').map toUpper := by
    rw [← FinCoreCli.tokenize_toUpper, ← FinCoreCli.tokenize_toUpper, hline]
  cases h with
  | blank hblank =>
      rw [hblank] at hwords
      exact .blank (List.map_eq_nil_iff.mp hwords.symm)
  | command first args htokens hrefused =>
      rw [htokens] at hwords
      obtain ⟨first', args', htokens', hfirst, hargs⟩ := List.map_eq_cons_iff.mp hwords.symm
      refine .command first' args' htokens' ?_
      have hname : FinCoreCli.commandName first' = FinCoreCli.commandName first :=
        congrArg toLower hfirst
      rw [hname]
      exact hrefused.letterCase hargs.symm

end LetterCase

/-! ## §5. Sessions. -/

section Sessions

variable {σ : Type} (cli : FinCoreCli σ)

/-- Which symbols are configured is all that a refusal looks at. -/
theorem RefusesCommand.congr {st st' : CliState} {command : Str} {args : FinCoreCli.Args}
    (hsame : ∀ symbol, FinCoreCli.isConfigured st' symbol = FinCoreCli.isConfigured st symbol)
    (h : RefusesCommand st command args) : RefusesCommand st' command args := by
  cases h with
  | unknown hunknown => exact .unknown hunknown
  | count least most hmem hcount => exact .count least most hmem hcount
  | number i name minimum maximum text hmem htext hnumber =>
      exact .number i name minimum maximum text hmem htext hnumber
  | symbol others arg hmem harg hother hconfigured =>
      exact .symbol others arg hmem harg hother (by rw [hsame, hconfigured])
  | action known arg hmem harg hunknown => exact .action known arg hmem harg hunknown

theorem Refuses.congr {st st' : CliState} {line : Str}
    (hsame : ∀ symbol, FinCoreCli.isConfigured st' symbol = FinCoreCli.isConfigured st symbol)
    (h : Refuses st line) : Refuses st' line := by
  cases h with
  | blank hblank => exact .blank hblank
  | command first args htokens hrefused =>
      exact .command first args htokens (hrefused.congr hsame)

/-- No book is added or removed along a trace. -/
theorem Trace.isConfigured {s t : Logged σ} {events : List (Happening σ)}
    (h : Trace cli s events t) (symbol : Symbol) :
    FinCoreCli.isConfigured t.2 symbol = FinCoreCli.isConfigured s.2 symbol := by
  unfold FinCoreCli.isConfigured
  induction h with
  | idle hidle => rw [hidle.members.books]
  | fetch fetch =>
      obtain ⟨before, now, built, calls, hbook, -, -, hrebuilds, -⟩ := cli.fetchCall_run fetch
      by_cases hsymbol : symbol = fetch.symbol
      · subst hsymbol
        rw [hrebuilds.book_self, hbook]
        cases built with
        | none => rfl
        | some quote => rfl
      · rw [hrebuilds.book_other hsymbol]
  | reset hcleared => rw [hcleared.books]
  | append _ _ ih ih' => exact ih'.trans ih

theorem FinCoreCli.runLine_isConfigured (line : Str) (s : Logged σ) (symbol : Symbol) :
    isConfigured (cli.logged.runLine line s).2.2 symbol = isConfigured s.2 symbol := by
  obtain ⟨events, htrace⟩ := cli.handled_trace [line] s
  exact htrace.isConfigured cli symbol

theorem FinCoreCli.run_inputLoop (lines : List Str) :
    cli.run lines = Action.inputLoop cli.runLine lines := by
  induction lines with
  | nil => rfl
  | cons line rest ih =>
      unfold run Action.inputLoop
      rw [ih]

/-- The line that ends a session is none of those that are refused. -/
theorem Interspersed.any_endsLoop {st : CliState} {lines lines' : List Str}
    (h : Action.Interspersed (Refuses st) lines lines') :
    lines'.any FinCoreCli.endsLoop = lines.any FinCoreCli.endsLoop := by
  induction h with
  | nil => rfl
  | keep line _ ih => rw [List.any_cons, List.any_cons, ih]
  | insert line hrefused _ ih =>
      rw [List.any_cons, FinCoreCli.endsLoop_of_refuses hrefused, ih, Bool.false_or]

/-- **Refused lines, in any letter case, have no effect:** each leaves the world,
the calls, the members and the loop as they are, and any number of them,
anywhere, change neither the calls of a session nor where it ends. -/
theorem refusedLines_noEffect (s : Logged σ) :
    (∀ line line', toUpper line = toUpper line' → (Refuses s.2 line ↔ Refuses s.2 line'))
    ∧ (∀ line, Refuses s.2 line → ∃ printed : List Event, cli.logged.runLine line s
        = (.ok true, (s.1, { s.2 with events := s.2.events ++ printed })))
    ∧ ∀ lines lines', Action.Interspersed (Refuses s.2) lines lines' →
        (cli.logged.run lines' s).1 = (cli.logged.run lines s).1
        ∧ lines'.any FinCoreCli.endsLoop = lines.any FinCoreCli.endsLoop
        ∧ PrintsMore (cli.logged.run lines s).2 (cli.logged.run lines' s).2 := by
  refine ⟨fun line line' hline => ⟨Refuses.letterCase hline, Refuses.letterCase hline.symm⟩,
    fun line hrefused => cli.logged.runLine_refused s hrefused, ?_⟩
  intro lines lines' hlines
  -- the second run keeps the configuration the refusals were judged by
  let configuredAsBefore : Logged σ → Prop := fun t =>
    ∀ symbol, FinCoreCli.isConfigured t.2 symbol = FinCoreCli.isConfigured s.2 symbol
  have hline : ∀ line, Action.Lockstep (fun u t => PrintsMore u t ∧ configuredAsBefore t)
      (cli.logged.runLine line) (cli.logged.runLine line) := by
    intro line
    refine (cli.logged.runLine_lockstep line).and_preserves (fun t ht symbol => ?_)
    rw [cli.runLine_isConfigured, ht symbol]
  have hidle : ∀ line, Refuses s.2 line → ∀ u t, PrintsMore u t ∧ configuredAsBefore t →
      (cli.logged.runLine line t).1 = .ok true
        ∧ PrintsMore u (cli.logged.runLine line t).2
        ∧ configuredAsBefore (cli.logged.runLine line t).2 := by
    intro line hrefused u t ⟨hut, ht⟩
    obtain ⟨printed, hrun⟩ := cli.logged.runLine_refused t (hrefused.congr ht)
    rw [hrun]
    exact ⟨rfl, hut.trans (PrintsMore.printed t printed), ht⟩
  have hloop := Action.Lockstep.inputLoop hline hidle hlines
  rw [← cli.logged.run_inputLoop, ← cli.logged.run_inputLoop] at hloop
  obtain ⟨hout, hmore, -⟩ := hloop s s ⟨PrintsMore.refl s, fun symbol => rfl⟩
  exact ⟨hout.symm, Interspersed.any_endsLoop hlines, hmore⟩

theorem ghostFetch_noEffect :
    (∃ printed : List Event,
      (sampleCli sampleServices).logged.runLine "Fetch ghost".toList (((), []), sampleState)
        = (.ok true, (((), []), { sampleState with events := sampleState.events ++ printed })))
    ∧ ((sampleCli sampleServices).logged.run ["Fetch ghost".toList, "fetch ibm".toList, []]
          (((), []), sampleState)).2.1
        = ((sampleCli sampleServices).logged.run ["fetch ibm".toList]
          (((), []), sampleState)).2.1 := by
  have hghost : Refuses sampleState "Fetch ghost".toList := by
    refine .command "Fetch".toList ["ghost".toList] (by decide) ?_
    exact .symbol ["ALL".toList] "ghost".toList (by decide) rfl (by decide) (by decide)
  have hlines : Action.Interspersed (Refuses sampleState) ["fetch ibm".toList]
      ["Fetch ghost".toList, "fetch ibm".toList, []] :=
    .insert _ hghost (.keep _ (.insert [] (.blank rfl) .nil))
  obtain ⟨-, hline, hsession⟩ :=
    refusedLines_noEffect (sampleCli sampleServices) (((), []), sampleState)
  exact ⟨hline _ hghost, (hsession _ _ hlines).2.2.world⟩

end Sessions

end FinCore.Cli

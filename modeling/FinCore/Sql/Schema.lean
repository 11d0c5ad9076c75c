/-
  FinCore.Sql.Schema
  ──────────────────
  Tables with column types, generated columns and CHECK constraints.

  The columns of a table are the values of a type, a row is a function on it.
  `Table.store` is what becomes of a row that is inserted, before any key is
  looked at; `Table.store_eq_some_iff` says when it is taken.
-/
import FinCore.Sql.ColumnType

namespace FinCore.Sql

open FinCore.Cxx

/-! ## §1. Truth values. -/

/-- The truth value of a condition; `none` is unknown. -/
abbrev Truth := Option Bool

namespace Truth

def and : Truth → Truth → Truth
  | some false, _ => some false
  | _, some false => some false
  | some true, some true => some true
  | _, _ => none

def or : Truth → Truth → Truth
  | some true, _ => some true
  | _, some true => some true
  | some false, some false => some false
  | _, _ => none

/-- A CHECK constraint passes unless its condition is false. -/
def Passes (t : Truth) : Prop := t ≠ some false

instance (t : Truth) : Decidable (Passes t) := inferInstanceAs (Decidable (_ ≠ _))

@[simp] theorem passes_and {t u : Truth} : Passes (and t u) ↔ Passes t ∧ Passes u := by
  rcases t with _ | _ | _ <;> rcases u with _ | _ | _ <;> decide

theorem or_false (t : Truth) : or (some false) t = t := by
  rcases t with _ | _ | _ <;> rfl

@[simp] theorem passes_some {b : Bool} : Passes (some b) ↔ b = true := by
  cases b <;> decide

end Truth

namespace Value

/-- `IS NULL`. -/
def isNull (v : Value) : Truth := some (decide (v = .null))

/-- `<=`. -/
def le : Value → Value → Truth
  | .number a, .number b => some (decide (a ≤ b))
  | .integer a, .integer b => some (decide (a ≤ b))
  | _, _ => none

/-- `<`. -/
def lt : Value → Value → Truth
  | .number a, .number b => some (decide (a < b))
  | .integer a, .integer b => some (decide (a < b))
  | _, _ => none

/-- `BETWEEN … AND …`. -/
def between (v low high : Value) : Truth := Truth.and (le low v) (le v high)

/-- A condition on a text. -/
def onText (p : Str → Bool) : Value → Truth
  | .text s => some (p s)
  | _ => none

/-- `=` and `~` on a text: in upper case, of the class of characters. -/
def isUpperMatch (isMember : Char → Bool) (v : Value) : Truth :=
  Truth.and (onText (fun s => s = toUpper s) v) (onText (matchesAll isMember) v)

/-- `btrim(…) <> ''`. -/
def isNotBlank (v : Value) : Truth := onText (fun s => btrim s ≠ []) v

/-- `jsonb_typeof(…) = 'object'`: the canonical text of an object, and of
nothing else, starts with a brace. -/
def isJsonObject : Value → Truth
  | .json s => some (s.head? = some '\x7b')
  | _ => none

/-- `+` of two numbers. -/
def add : Value → Value → Value
  | .number a, .number b => .number (a + b)
  | _, _ => .null

/-- `-` of two numbers. -/
def sub : Value → Value → Value
  | .number a, .number b => .number (a - b)
  | _, _ => .null

/-- `/ 2` of a number.  The quotient keeps all digits that a column of the
operand's scale can tell apart. -/
def half : Value → Value
  | .number a => .number (a / 2)
  | _ => .null

end Value

/-! ## §2. Tables. -/

variable {C : Type}

/-- The values in the columns of a row. -/
abbrev Record (C : Type) := C → Value

structure Table (C : Type) where
  columns : List C
  all_columns : ∀ c, c ∈ columns
  type : C → ColumnType
  nullable : C → Bool
  /-- The expression of a column `GENERATED ALWAYS AS`. -/
  generated : C → Option (Record C → Value)
  /-- The CHECK constraints, with their names. -/
  checks : List (Str × (Record C → Truth))

/-- `INSERT INTO … (columns) VALUES (values)`: the other columns are `NULL`. -/
def recordOf [DecidableEq C] (columns : List C) (values : List Value) : Record C :=
  fun c => values.getD (columns.idxOf c) .null

namespace Table

variable (table : Table C)

/-- All columns, if each has a value. -/
def sequence (f : C → Option Value) : Option (Record C) :=
  if h : ∀ c ∈ table.columns, (f c).isSome = true then
    some (fun c => (f c).get (h c (table.all_columns c)))
  else none

theorem sequence_eq_some_iff {f : C → Option Value} {r : Record C} :
    table.sequence f = some r ↔ ∀ c, f c = some (r c) := by
  unfold sequence
  constructor
  · intro h c
    split at h
    next hall =>
      injection h with h
      rw [← h, Option.some_get]
    next => cases h
  · intro h
    have hall : ∀ c ∈ table.columns, (f c).isSome = true := by
      intro c _
      rw [h c]
      rfl
    rw [dif_pos hall]
    congr 1
    funext c
    exact Option.get_of_eq_some _ (h c)

/-- The columns that are not generated. -/
def given (r : Record C) : Record C := fun c => if (table.generated c).isSome then .null else r c

/-- What the row stores: the given columns, then the generated ones, then the
constraints. -/
def store (sent : Record C) : Option (Record C) := do
  let given ← table.sequence (fun c =>
    if (table.generated c).isSome then some .null else (table.type c).assign (sent c))
  let row ← table.sequence (fun c =>
    match table.generated c with
    | some expression => (table.type c).assign (expression given)
    | none => some (given c))
  if (∀ c ∈ table.columns, table.nullable c = false → row c ≠ .null)
      ∧ ∀ check ∈ table.checks, Truth.Passes (check.2 row) then some row
  else none

/-- `stored` is a row of the table made of what was sent. -/
structure Stores (sent stored : Record C) : Prop where
  given : ∀ c, table.generated c = none → (table.type c).assign (sent c) = some (stored c)
  generated : ∀ c expression, table.generated c = some expression →
    (table.type c).assign (expression (table.given stored)) = some (stored c)
  notNull : ∀ c, table.nullable c = false → stored c ≠ .null
  checks : ∀ check ∈ table.checks, Truth.Passes (check.2 stored)

variable {table}

/-- **When a row is taken, and what it then stores.** -/
theorem store_eq_some_iff {sent stored : Record C} :
    table.store sent = some stored ↔ table.Stores sent stored := by
  unfold store
  simp only [bind, Option.bind_eq_some_iff, sequence_eq_some_iff, Option.ite_none_right_eq_some,
    Option.some.injEq]
  constructor
  · rintro ⟨given, hgiven, row, hrow, ⟨hnull, hchecks⟩, rfl⟩
    -- what the columns are given is what the row itself holds
    have heq : given = table.given row := by
      funext c
      have hgiven := hgiven c
      have hrow := hrow c
      unfold Table.given
      cases hgenerated : table.generated c with
      | none =>
          rw [hgenerated] at hrow
          exact Option.some.inj hrow
      | some expression =>
          rw [hgenerated] at hgiven
          exact (Option.some.inj hgiven).symm
    refine ⟨?_, ?_, fun c => hnull c (table.all_columns c), hchecks⟩
    · intro c hgenerated
      have hgiven := hgiven c
      have hrow := hrow c
      rw [hgenerated] at hgiven hrow
      rw [← Option.some.inj hrow]
      exact hgiven
    · intro c expression hgenerated
      have hrow := hrow c
      rw [hgenerated, heq] at hrow
      exact hrow
  · rintro ⟨hgiven, hgenerated, hnull, hchecks⟩
    refine ⟨table.given stored, ?_, stored, ?_, ⟨fun c _ => hnull c, hchecks⟩, rfl⟩
    · intro c
      unfold Table.given
      cases h : table.generated c with
      | none => exact hgiven c h
      | some expression => rfl
    · intro c
      cases h : table.generated c with
      | none =>
          unfold Table.given
          rw [h]
          rfl
      | some expression => exact hgenerated c expression h

/-- **A row that the columns store as it is sent is taken exactly if it passes
the constraints.** -/
theorem store_isSome_iff {sent : Record C} (hgiven : ∀ c, table.generated c = none)
    (hassign : ∀ c, (table.type c).assign (sent c) = some (sent c))
    (hnull : ∀ c, table.nullable c = false → sent c ≠ .null) :
    (table.store sent).isSome = true ↔ ∀ check ∈ table.checks, Truth.Passes (check.2 sent) := by
  rw [Option.isSome_iff_exists]
  constructor
  · rintro ⟨stored, hstored⟩
    have hstores := store_eq_some_iff.mp hstored
    -- no column is generated or changed by its type
    have heq : stored = sent := by
      funext c
      have hcolumn := hstores.given c (hgiven c)
      rw [hassign c] at hcolumn
      exact (Option.some.inj hcolumn).symm
    rw [← heq]
    exact hstores.checks
  · intro hchecks
    refine ⟨sent, store_eq_some_iff.mpr ⟨fun c _ => hassign c, ?_, hnull, hchecks⟩⟩
    intro c expression hgenerated
    rw [hgiven c] at hgenerated
    cases hgenerated

end Table

end FinCore.Sql

/-
  FinCore.Sql.ColumnType
  ──────────────────────
  Values, column types, and what a column stores of a value assigned to it.

  A `NUMERIC` column rounds to its scale and refuses what then has too many
  digits; a `VARCHAR` column counts characters, not bytes, and cuts off nothing
  but spaces.
-/
import FinCore.Cxx.Convert
import FinCore.Cxx.Utf8

namespace FinCore.Sql

open FinCore.Cxx

inductive Value where
  | null
  | text (s : Str)
  /-- `timestamptz`, in microseconds since the epoch. -/
  | instant (us : ℤ)
  | number (q : ℚ)
  | integer (n : ℤ)
  | boolean (b : Bool)
  /-- `jsonb`, in its canonical text. -/
  | json (s : Str)
  deriving DecidableEq

inductive ColumnType where
  | varchar (n : ℕ)
  | character (n : ℕ)
  | text
  | smallint
  | boolean
  | timestamptz
  | numeric (precision scale : ℕ)
  | jsonb
  deriving DecidableEq

/-! ## §1. Numbers. -/

/-- To the nearest integer, ties away from zero. -/
def roundAway (x : ℚ) : ℤ := if 0 ≤ x then ⌊x + 1 / 2⌋ else -⌊-x + 1 / 2⌋

theorem roundAway_error (x : ℚ) : |(roundAway x : ℚ) - x| ≤ 1 / 2 := by
  have hfloor : ∀ y : ℚ, |(⌊y + 1 / 2⌋ : ℚ) - y| ≤ 1 / 2 := by
    intro y
    have hle := Int.floor_le (y + 1 / 2)
    have hlt := Int.lt_floor_add_one (y + 1 / 2)
    rw [abs_le]
    constructor <;> linarith
  unfold roundAway
  split
  · exact hfloor x
  · have h := hfloor (-x)
    rw [← abs_neg] at h
    push_cast
    rw [show -((⌊-x + 1 / 2⌋ : ℤ) : ℚ) - x = -((⌊-x + 1 / 2⌋ : ℚ) - -x) by ring]
    exact h

/-- An integer is the only one within a half of itself, but for ties. -/
theorem roundAway_intCast (n : ℤ) : roundAway n = n := by
  have h := abs_le.mp (roundAway_error n)
  have hlow : (n : ℚ) < roundAway n + 1 := by linarith [h.1]
  have hhigh : (roundAway n : ℚ) < n + 1 := by linarith [h.2]
  have hlow : n < roundAway n + 1 := by exact_mod_cast hlow
  have hhigh : roundAway n < n + 1 := by exact_mod_cast hhigh
  omega

/-- Half of a sum goes up. -/
theorem roundAway_half {n : ℤ} (h : 0 ≤ n) : roundAway (n / 2) = (n + 1) / 2 := by
  have hnonneg : (0 : ℚ) ≤ n / 2 := by positivity
  unfold roundAway
  rw [if_pos hnonneg, ← add_div]
  exact_mod_cast Rat.floor_intCast_div_natCast (n + 1) 2

/-- Assignment to `NUMERIC(precision, scale)`; `none` is the overflow. -/
def assignNumeric (precision scale : ℕ) (q : ℚ) : Option ℚ :=
  let unscaled := roundAway (q * 10 ^ scale)
  if unscaled.natAbs < 10 ^ precision then some (unscaled / 10 ^ scale) else none

/-- **What has no more digits than the column is stored as it is.** -/
theorem assignNumeric_exact {precision scale : ℕ} {n : ℤ} (h : n.natAbs < 10 ^ precision) :
    assignNumeric precision scale (n / 10 ^ scale) = some ((n : ℚ) / 10 ^ scale) := by
  have hscale : (n / 10 ^ scale * 10 ^ scale : ℚ) = n := div_mul_cancel₀ _ (by positivity)
  unfold assignNumeric
  rw [hscale, roundAway_intCast]
  exact if_pos h

theorem assignNumeric_half {precision scale : ℕ} {n : ℤ} (hn : 0 ≤ n)
    (h : ((n + 1) / 2).natAbs < 10 ^ precision) :
    assignNumeric precision scale (n / 10 ^ scale / 2)
      = some ((((n + 1) / 2 : ℤ) : ℚ) / 10 ^ scale) := by
  have hscale : (n / 10 ^ scale / 2 * 10 ^ scale : ℚ) = n / 2 := by
    rw [div_right_comm]
    exact div_mul_cancel₀ _ (by positivity)
  unfold assignNumeric
  rw [hscale, roundAway_half hn]
  exact if_pos h

/-! ## §2. Texts. -/

/-- Assignment to `VARCHAR(n)`: characters in excess must be spaces. -/
def assignVarchar (n : ℕ) (s : Str) : Option Str :=
  match utf8Length s with
  | none => none
  | some characters =>
      let kept := s.length - (characters - n)
      if (s.drop kept).all (· = ' ') then some (s.take kept) else none

theorem assignVarchar_fits {n : ℕ} {s : Str} (hvalid : ValidUtf8 s) (hlength : s.length ≤ n) :
    assignVarchar n s = some s := by
  obtain ⟨characters, hcharacters⟩ := hvalid.length
  have hle := utf8Length_le hcharacters
  have hkept : s.length - (characters - n) = s.length := by omega
  unfold assignVarchar
  rw [hcharacters]
  simp only [hkept, List.drop_length, List.all_nil, if_true, List.take_length]

/-- `btrim`. -/
def btrim (s : Str) : Str :=
  ((s.dropWhile (· = ' ')).reverse.dropWhile (· = ' ')).reverse

/-- Nothing is left of a text exactly if it is all spaces. -/
theorem btrim_eq_nil_iff {s : Str} : btrim s = [] ↔ ∀ c ∈ s, c = ' ' := by
  unfold btrim
  rw [List.reverse_eq_nil_iff, List.dropWhile_eq_nil_iff]
  constructor
  · intro h
    by_contra hspaces
    have hne : s.dropWhile (· = ' ') ≠ [] := by
      rw [Ne, List.dropWhile_eq_nil_iff]
      simpa using hspaces
    have hhead := List.head_dropWhile_not (fun c => decide (c = ' ')) hne
    have hmem := h _ (List.mem_reverse.mpr (List.head_mem hne))
    rw [hhead] at hmem
    cases hmem
  · intro h c hc
    have hmem := (List.dropWhile_sublist _).subset (List.mem_reverse.mp hc)
    exact decide_eq_true (h c hmem)

/-- `~ '^[…]+$'`, for a class of characters. -/
def matchesAll (isMember : Char → Bool) (s : Str) : Bool := !s.isEmpty && s.all isMember

/-! ## §3. Inputs. -/

/-- `smallint` input: a decimal numeral between white space. -/
def readSmallint (s : Str) : Option ℤ :=
  let scan := scanInteger s
  if scan.digits ≠ [] ∧ (s.drop scan.consumed).all isSpace ∧ -2 ^ 15 ≤ scan.value
      ∧ scan.value < 2 ^ 15 then some scan.value
  else none

/-- The words of `boolean` input, and the least length of an abbreviation. -/
def booleanWords : List (Str × ℕ × Bool) :=
  [("true".toList, 1, true), ("false".toList, 1, false), ("yes".toList, 1, true),
    ("no".toList, 1, false), ("on".toList, 2, true), ("off".toList, 2, false),
    ("1".toList, 1, true), ("0".toList, 1, false)]

/-- `boolean` input. -/
def readBoolean (s : Str) : Option Bool :=
  let word := toLower (((s.dropWhile isSpace).reverse.dropWhile isSpace).reverse)
  (booleanWords.find? (fun entry => entry.2.1 ≤ word.length && word.isPrefixOf entry.1)).map
    (·.2.2)

/-! ## §4. Columns. -/

/-- What a column of the type stores of a value; `none` when it refuses. -/
def ColumnType.assign : ColumnType → Value → Option Value
  | _, .null => some .null
  | .varchar n, .text s => (assignVarchar n s).map .text
  -- `char(n)` is padded with blanks to its length
  | .character n, .text s =>
      (assignVarchar n s).map (fun kept =>
        .text (kept ++ List.replicate (n - (utf8Length kept).getD 0) ' '))
  | .text, .text s => if ValidUtf8 s then some (.text s) else none
  | .smallint, .integer n => if -2 ^ 15 ≤ n ∧ n < 2 ^ 15 then some (.integer n) else none
  | .boolean, .boolean b => some (.boolean b)
  | .timestamptz, .instant us => some (.instant us)
  | .numeric precision scale, .number q => (assignNumeric precision scale q).map .number
  | .jsonb, .json s => some (.json s)
  | _, _ => none

@[simp] theorem ColumnType.assign_null (type : ColumnType) : type.assign .null = some .null := by
  cases type <;> rfl

theorem ColumnType.assign_varchar {n : ℕ} {s : Str} (hvalid : ValidUtf8 s)
    (hlength : s.length ≤ n) : (ColumnType.varchar n).assign (.text s) = some (.text s) := by
  show (assignVarchar n s).map _ = _
  rw [assignVarchar_fits hvalid hlength]
  rfl

theorem ColumnType.assign_text {s : Str} (hvalid : ValidUtf8 s) :
    ColumnType.text.assign (.text s) = some (.text s) := if_pos hvalid

theorem ColumnType.assign_numeric {precision scale : ℕ} {n : ℤ} (h : n.natAbs < 10 ^ precision) :
    (ColumnType.numeric precision scale).assign (.number (n / 10 ^ scale))
      = some (.number ((n : ℚ) / 10 ^ scale)) := by
  show (assignNumeric precision scale _).map _ = _
  rw [assignNumeric_exact h]
  rfl

/-! ## §5. Whole or not at all. -/

/-- What the type stores of the value, if it stores it, is the value. -/
def ColumnType.Whole (type : ColumnType) (value : Value) : Prop :=
  ∀ stored, type.assign value = some stored → stored = value

namespace ColumnType

theorem Whole.of_assign {type : ColumnType} {value : Value} (h : type.assign value = some value) :
    type.Whole value := by
  intro stored hstored
  rw [h] at hstored
  exact (Option.some.inj hstored).symm

theorem whole_null (type : ColumnType) : type.Whole .null := Whole.of_assign (assign_null type)

/-- A text that has no more bytes than the column has characters. -/
theorem whole_varchar {n : ℕ} {s : Str} (h : s.length ≤ n) : (varchar n).Whole (.text s) := by
  intro stored hstored
  obtain ⟨kept, hkept, rfl⟩ := Option.map_eq_some_iff.mp hstored
  unfold assignVarchar at hkept
  cases hlength : utf8Length s with
  | none => simp [hlength] at hkept
  | some characters =>
      have hle := utf8Length_le hlength
      have hwhole : s.length - (characters - n) = s.length := by omega
      simp only [hlength, hwhole, List.drop_length, List.all_nil, if_true, List.take_length,
        Option.some.injEq] at hkept
      rw [hkept]

theorem whole_text (value : Value) : text.Whole value := by
  intro stored hstored
  cases value with
  | null => exact (Option.some.inj hstored).symm
  | text s =>
      change (if ValidUtf8 s then some (Value.text s) else none) = some stored at hstored
      split at hstored
      · exact (Option.some.inj hstored).symm
      · cases hstored
  | _ => cases hstored

theorem whole_timestamptz (value : Value) : timestamptz.Whole value := by
  intro stored hstored
  cases value with
  | null | instant us => exact (Option.some.inj hstored).symm
  | _ => cases hstored

theorem whole_jsonb (value : Value) : jsonb.Whole value := by
  intro stored hstored
  cases value with
  | null | json s => exact (Option.some.inj hstored).symm
  | _ => cases hstored

theorem whole_boolean (value : Value) : boolean.Whole value := by
  intro stored hstored
  cases value with
  | null | boolean b => exact (Option.some.inj hstored).symm
  | _ => cases hstored

theorem whole_smallint (value : Value) : smallint.Whole value := by
  intro stored hstored
  cases value with
  | null => exact (Option.some.inj hstored).symm
  | integer n =>
      change (if -2 ^ 15 ≤ n ∧ n < 2 ^ 15 then some (Value.integer n) else none) = some stored
        at hstored
      split at hstored
      · exact (Option.some.inj hstored).symm
      · cases hstored
  | _ => cases hstored

end ColumnType

end FinCore.Sql

/-
  FinCore.Sql.Table
  ─────────────────
  Tables with a conflict key, and `INSERT … ON CONFLICT DO NOTHING`.

  A row may have no key (a partial unique index does not cover it): it never
  conflicts.  Inserting a batch row by row adds, in order, the first record of
  every key that is neither in the table nor earlier in the batch
  (`insertAll_eq`); the rows that were there stay where they were.
-/
import Mathlib

namespace FinCore.Sql

theorem mapM_eq_some_iff {A B : Type} {f : A → Option B} {as : List A} :
    ∀ {bs : List B}, as.mapM f = some bs ↔ List.Forall₂ (fun a b => f a = some b) as bs := by
  induction as with
  | nil =>
      intro bs
      rw [List.mapM_nil, List.forall₂_nil_left_iff]
      exact ⟨fun h => (Option.some.inj h).symm, fun h => h ▸ rfl⟩
  | cons a rest ih =>
      intro bs
      simp only [List.mapM_cons, List.forall₂_cons_left_iff, Option.bind_eq_bind,
        Option.bind_eq_some_iff, Option.pure_def, Option.some.injEq, ih]
      constructor
      · intro ⟨b, hb, rest', hrest, hbs⟩
        exact ⟨b, rest', hb, hrest, hbs.symm⟩
      · intro ⟨b, rest', hb, hrest, hbs⟩
        exact ⟨b, hb, rest', hrest, hbs.symm⟩

/-- What stands on the right of a list relation has its partner on the left. -/
theorem forall₂_mem_right {A B : Type} {rel : A → B → Prop} {as : List A} {bs : List B}
    (h : List.Forall₂ rel as bs) {b : B} (hb : b ∈ bs) : ∃ a ∈ as, rel a b := by
  induction h with
  | nil => cases hb
  | cons hhead _ ih =>
      rcases List.mem_cons.mp hb with rfl | htail
      · exact ⟨_, List.mem_cons_self, hhead⟩
      · obtain ⟨a, ha, hab⟩ := ih htail
        exact ⟨a, List.mem_cons_of_mem _ ha, hab⟩

variable {R K : Type} (key : R → Option K)

/-- No row of the table has the key of `row`. -/
def Fresh (table : List R) (row : R) : Prop :=
  ∀ k, key row = some k → ∀ r ∈ table, key r ≠ some k

theorem fresh_iff {table : List R} {row : R} {k : K} (h : key row = some k) :
    Fresh key table row ↔ ∀ r ∈ table, key r ≠ some k := by
  constructor
  · exact fun hfresh => hfresh k h
  · intro hall k' hk'
    rw [h] at hk'
    exact Option.some.inj hk' ▸ hall

/-- Freshness depends on the keys that occur only. -/
theorem fresh_congr {table table' : List R}
    (h : ∀ k, (∃ r ∈ table, key r = some k) ↔ ∃ r ∈ table', key r = some k) (row : R) :
    Fresh key table row ↔ Fresh key table' row := by
  have hstep : ∀ {s t : List R}, (∀ k, (∃ r ∈ t, key r = some k) → ∃ r ∈ s, key r = some k) →
      Fresh key s row → Fresh key t row := by
    intro s t hst hs k hk r hr hrk
    obtain ⟨r', hr', hrk'⟩ := hst k ⟨r, hr, hrk⟩
    exact hs k hk r' hr' hrk'
  exact ⟨hstep (fun k => (h k).mpr), hstep (fun k => (h k).mp)⟩

variable [DecidableEq K]

instance (table : List R) (row : R) : Decidable (Fresh key table row) := by
  unfold Fresh
  cases key row with
  | none => exact isTrue (fun _ h => nomatch h)
  | some k =>
      exact decidable_of_iff (∀ r ∈ table, key r ≠ some k)
        ⟨fun h k' hk' => Option.some.inj hk' ▸ h, fun h => h k rfl⟩

/-- `INSERT … ON CONFLICT DO NOTHING` of one row: the table and the number of
rows affected. -/
def insertDoNothing (row : R) (table : List R) : List R × ℕ :=
  if Fresh key table row then (table ++ [row], 1) else (table, 0)

/-- Insert the rows one after the other, adding up the rows affected. -/
def insertAll : List R → List R × ℕ → List R × ℕ
  | [], acc => acc
  | row :: rest, (table, n) =>
      let (table', m) := insertDoNothing key row table
      insertAll rest (table', n + m)

/-- The records of a batch that a table gains: each that is the first of its
key among the rows present and the records before it. -/
def gained (present : List R) : List R → List R
  | [] => []
  | row :: rest =>
      if Fresh key present row then row :: gained (present ++ [row]) rest
      else gained (present ++ [row]) rest

theorem gained_singleton (present : List R) (row : R) :
    gained key present [row] = if Fresh key present row then [row] else [] := rfl

/-- A record that is not fresh has its key in the table already. -/
theorem keys_of_not_fresh {table : List R} {row : R} (h : ¬ Fresh key table row) (k : K) :
    (∃ r ∈ table ++ [row], key r = some k) ↔ ∃ r ∈ table, key r = some k := by
  constructor
  · rintro ⟨r, hr, hk⟩
    rcases List.mem_append.mp hr with hr | hr
    · exact ⟨r, hr, hk⟩
    · rw [List.mem_singleton] at hr
      subst hr
      by_contra hno
      refine h (fun k' hk' r' hr' hrk' => hno ⟨r', hr', ?_⟩)
      rw [hrk', ← hk', hk]
  · rintro ⟨r, hr, hk⟩
    exact ⟨r, List.mem_append_left _ hr, hk⟩

/-- What is gained depends on the keys present only. -/
theorem gained_congr (batch : List R) :
    ∀ {present present' : List R},
      (∀ k, (∃ r ∈ present, key r = some k) ↔ ∃ r ∈ present', key r = some k) →
      gained key present batch = gained key present' batch := by
  induction batch with
  | nil => intro _ _ _; rfl
  | cons row rest ih =>
      intro present present' h
      have hkeys : ∀ k, (∃ r ∈ present ++ [row], key r = some k)
          ↔ ∃ r ∈ present' ++ [row], key r = some k := by
        intro k
        simp only [List.mem_append, or_and_right, exists_or]
        rw [h k]
      have hrest := ih hkeys
      have hfresh := fresh_congr key h row
      unfold gained
      by_cases hf : Fresh key present row
      · rw [if_pos hf, if_pos (hfresh.mp hf), hrest]
      · rw [if_neg hf, if_neg (fun h' => hf (hfresh.mpr h')), hrest]

/-- **A batch gains the first record of every key not yet present, and the
rows affected are their number.** -/
theorem insertAll_eq (batch : List R) :
    ∀ (table : List R) (n : ℕ),
      insertAll key batch (table, n)
        = (table ++ gained key table batch, n + (gained key table batch).length) := by
  induction batch with
  | nil => intro table n; simp [insertAll, gained]
  | cons row rest ih =>
      intro table n
      rw [insertAll, gained, insertDoNothing]
      by_cases hf : Fresh key table row
      · rw [if_pos hf, if_pos hf]
        simp only
        rw [ih]
        simp [Nat.add_assoc, Nat.add_comm]
      · -- the table keeps its keys, with or without the record
        rw [if_neg hf, if_neg hf]
        simp only
        rw [ih, gained_congr key rest (fun k => (keys_of_not_fresh key hf k).symm), Nat.add_zero]

theorem gained_length_le (batch : List R) :
    ∀ present : List R, (gained key present batch).length ≤ batch.length := by
  induction batch with
  | nil => intro _; exact le_refl _
  | cons row rest ih =>
      intro present
      have hrest := ih (present ++ [row])
      rw [gained]
      split
      · rw [List.length_cons, List.length_cons]
        omega
      · rw [List.length_cons]
        omega

/-- Every record without a key is gained. -/
theorem gained_countP_isNone (batch : List R) :
    ∀ present : List R, (gained key present batch).countP (fun r => (key r).isNone)
      = batch.countP (fun r => (key r).isNone) := by
  induction batch with
  | nil => exact fun _ => rfl
  | cons row rest ih =>
      intro present
      rw [gained]
      split
      · rw [List.countP_cons, List.countP_cons, ih]
      · -- a row that conflicts has a key
        rename_i hconflict
        have hkey : (key row).isNone = false := by
          cases hk : key row with
          | some k => rfl
          | none =>
              refine absurd (fun k hk' => ?_) hconflict
              rw [hk] at hk'
              cases hk'
        rw [ih, List.countP_cons, hkey, if_neg Bool.false_ne_true, Nat.add_zero]
end FinCore.Sql

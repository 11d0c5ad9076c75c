/-
  FinCore.Sql.Newest
  ──────────────────
  `ORDER BY … DESC LIMIT 1`, and how it sees a table filled by
  `INSERT … ON CONFLICT DO NOTHING`.

  Rows that conflict have the same rank, so leaving the later ones out does not
  change which row is the newest (`newest_filter_gained`): the query answers for
  everything that was inserted.
-/
import FinCore.Sql.Table

namespace FinCore.Sql

variable {R S K : Type} (rank : R → ℤ)

/-! ## §1. The newest row. -/

/-- The better of two rows; the earlier one keeps its place among equals. -/
def newer (best : Option R) (row : R) : Option R :=
  match best with
  | none => some row
  | some b => if rank b < rank row then some row else some b

/-- The first row of the greatest rank. -/
def newest (rows : List R) : Option R := rows.foldl (newer rank) none

/-- `row` has the greatest rank of all, and is the first that has. -/
def IsNewest (rows : List R) (row : R) : Prop :=
  ∃ before after, rows = before ++ row :: after ∧ (∀ r ∈ before, rank r < rank row)
    ∧ ∀ r ∈ after, rank r ≤ rank row

theorem newest_concat (rows : List R) (row : R) :
    newest rank (rows ++ [row]) = newer rank (newest rank rows) row := List.foldl_append

theorem IsNewest.le {rows : List R} {row : R} (h : IsNewest rank rows row) {r : R}
    (hr : r ∈ rows) : rank r ≤ rank row := by
  obtain ⟨before, after, rfl, hbefore, hafter⟩ := h
  rcases List.mem_append.mp hr with hr | hr
  · exact (hbefore r hr).le
  · rcases List.mem_cons.mp hr with rfl | hr
    · exact le_rfl
    · exact hafter r hr

/-- **The query finds the newest row**, and nothing only in an empty table. -/
theorem newest_spec (rows : List R) :
    (newest rank rows = none ∧ rows = [])
    ∨ ∃ row, newest rank rows = some row ∧ IsNewest rank rows row := by
  induction rows using List.reverseRecOn with
  | nil => exact Or.inl ⟨rfl, rfl⟩
  | append_singleton rows row ih =>
      right
      rw [newest_concat]
      rcases ih with ⟨hnone, rfl⟩ | ⟨best, hbest, before, after, rfl, hbefore, hafter⟩
      · rw [hnone]
        exact ⟨row, rfl, [], [], rfl, nofun, nofun⟩
      · rw [hbest]
        unfold newer
        -- a later row replaces the best one only if it ranks higher
        by_cases hlt : rank best < rank row
        · refine ⟨row, if_pos hlt, before ++ best :: after, [], rfl, ?_, nofun⟩
          intro r hr
          have hle : rank r ≤ rank best :=
            IsNewest.le rank ⟨before, after, rfl, hbefore, hafter⟩ hr
          omega
        · refine ⟨best, if_neg hlt, before, after ++ [row], by simp, hbefore, ?_⟩
          intro r hr
          rcases List.mem_append.mp hr with hr | hr
          · exact hafter r hr
          · rw [List.mem_singleton.mp hr]
            omega

/-- A row that is no newer than one before it does not matter. -/
theorem newest_concat_old {rows : List R} {row r : R} (hr : r ∈ rows) (hle : rank row ≤ rank r) :
    newest rank (rows ++ [row]) = newest rank rows := by
  rw [newest_concat]
  rcases newest_spec rank rows with ⟨_, rfl⟩ | ⟨best, hbest, hnewest⟩
  · cases hr
  · have hbound := hnewest.le rank hr
    rw [hbest]
    exact if_neg (by omega)

theorem newest_map (f : S → R) (rows : List S) :
    newest rank (rows.map f) = (newest (rank ∘ f) rows).map f := by
  induction rows using List.reverseRecOn with
  | nil => rfl
  | append_singleton rows row ih =>
      rw [List.map_append, List.map_singleton, newest_concat, newest_concat, ih]
      cases newest (rank ∘ f) rows with
      | none => rfl
      | some best =>
          show (if rank (f best) < rank (f row) then some (f row) else some (f best))
            = (if rank (f best) < rank (f row) then some row else some best).map f
          split
          · rfl
          · rfl

/-! ## §2. Over a table that ignores conflicts. -/

section Gained

variable (key : R → Option K) [DecidableEq K]

/-- A batch in two parts gains what the first part gains and what the second
gains on top. -/
theorem gained_append (batch later : List R) :
    ∀ present, gained key present (batch ++ later)
      = gained key present batch ++ gained key (present ++ batch) later := by
  induction batch with
  | nil =>
      intro present
      show gained key present later = [] ++ gained key (present ++ []) later
      rw [List.nil_append, List.append_nil]
  | cons row rest ih =>
      intro present
      have hpresent : present ++ [row] ++ rest = present ++ row :: rest := by simp
      rw [List.cons_append, gained, gained, ih, hpresent]
      split
      · rfl
      · rfl

/-- What a table has gained has the keys of what was inserted. -/
theorem keys_gained (batch : List R) (k : K) :
    ∀ present, (∃ r ∈ present ++ gained key present batch, key r = some k)
      ↔ ∃ r ∈ present ++ batch, key r = some k := by
  induction batch using List.reverseRecOn with
  | nil => exact fun present => Iff.rfl
  | append_singleton batch row ih =>
      intro present
      rw [gained_append, gained_singleton, ← List.append_assoc, ← List.append_assoc]
      split
      next hfresh =>
        simp only [List.mem_append (t := [row]), or_and_right, exists_or]
        rw [ih present]
      next hfresh =>
        rw [List.append_nil, ih present, keys_of_not_fresh key hfresh]

/-- Inserting into what an earlier batch has left is inserting both. -/
theorem gained_gained (batch later : List R) :
    gained key [] batch ++ gained key (gained key [] batch) later
      = gained key [] (batch ++ later) := by
  have hkeys : ∀ k, (∃ r ∈ gained key [] batch, key r = some k) ↔ ∃ r ∈ batch, key r = some k :=
    fun k => keys_gained key batch k []
  rw [gained_append, gained_congr key later hkeys, List.nil_append]

/-- **A row that was ignored would not have been the newest.** -/
theorem newest_filter_gained (p : R → Bool) (batch : List R)
    (hkeyed : ∀ r ∈ batch, (key r).isSome = true)
    (hkey : ∀ r ∈ batch, ∀ r' ∈ batch, key r = key r' → rank r = rank r' ∧ p r = p r') :
    newest rank ((gained key [] batch).filter p) = newest rank (batch.filter p) := by
  induction batch using List.reverseRecOn with
  | nil => rfl
  | append_singleton batch row ih =>
      have hbefore := ih (fun r hr => hkeyed r (List.mem_append_left _ hr))
        (fun r hr r' hr' => hkey r (List.mem_append_left _ hr) r' (List.mem_append_left _ hr'))
      rw [gained_append, gained_singleton, List.nil_append, List.filter_append, List.filter_append]
      split
      next hfresh =>
        cases hp : p row with
        | true =>
            rw [List.filter_cons_of_pos hp, List.filter_nil, newest_concat, newest_concat, hbefore]
        | false =>
            rw [List.filter_cons_of_neg (by rw [hp]; decide), List.filter_nil, List.append_nil,
              List.append_nil, hbefore]
      next hconflict =>
        rw [List.filter_nil, List.append_nil, hbefore]
        cases hp : p row with
        | false =>
            rw [List.filter_cons_of_neg (by rw [hp]; decide), List.filter_nil, List.append_nil]
        | true =>
            rw [List.filter_cons_of_pos hp, List.filter_nil]
            -- the row it conflicts with has its rank, and is filtered like it
            obtain ⟨k, hk⟩ := Option.isSome_iff_exists.mp
              (hkeyed row (List.mem_append_right _ (List.mem_singleton_self row)))
            rw [fresh_iff key hk] at hconflict
            push Not at hconflict
            obtain ⟨r, hr, hrk⟩ := hconflict
            obtain ⟨hrank, hpr⟩ := hkey row (List.mem_append_right _ (List.mem_singleton_self row))
              r (List.mem_append_left _ hr) (hk.trans hrk.symm)
            have hmem : r ∈ batch.filter p := List.mem_filter.mpr ⟨hr, by rw [← hpr, hp]⟩
            exact (newest_concat_old rank hmem hrank.le).symm

end Gained

end FinCore.Sql

/-
  FinCore.Sql.Catalog
  ───────────────────
  A database of several tables: unique indexes, foreign keys, and inserts that
  ignore or update the row they conflict with.

  The tables are the values of a type and the columns of each a type of its
  own.  `insert_cases` is all that an accepted insert can do; from it come the
  integrity of the database (`Integrity.insert`) and, for an upsert that sets
  every column, that a table is a finite map from its keys (`insert_find`).
-/
import FinCore.Sql.Schema
import FinCore.Sql.Table

namespace FinCore.Sql

open FinCore.Cxx

/-! ## §1. Updated rows. -/

namespace Table

variable {C : Type} (table : Table C)

/-- The row is what the table stores of something. -/
def Holds (row : Record C) : Prop := ∃ sent, table.Stores sent row

/-- What an `UPDATE` makes of a row whose columns have been set: the generated
columns anew, then the constraints. -/
def revise (row : Record C) : Option (Record C) := do
  let row ← table.sequence (fun c =>
    match table.generated c with
    | some expression => (table.type c).assign (expression (table.given row))
    | none => some (row c))
  if (∀ c ∈ table.columns, table.nullable c = false → row c ≠ .null)
      ∧ ∀ check ∈ table.checks, Truth.Passes (check.2 row) then some row
  else none

variable {table}

/-- The given columns are all that the other expressions read. -/
theorem given_congr {row row' : Record C}
    (h : ∀ c, table.generated c = none → row c = row' c) : table.given row = table.given row' := by
  funext c
  unfold given
  cases hgenerated : table.generated c with
  | none => exact h c hgenerated
  | some expression => rfl

theorem revise_eq_some_iff {row revised : Record C} :
    table.revise row = some revised ↔
      (∀ c, table.generated c = none → revised c = row c)
      ∧ (∀ c expression, table.generated c = some expression →
        (table.type c).assign (expression (table.given revised)) = some (revised c))
      ∧ (∀ c, table.nullable c = false → revised c ≠ .null)
      ∧ ∀ check ∈ table.checks, Truth.Passes (check.2 revised) := by
  unfold revise
  simp only [bind, Option.bind_eq_some_iff, sequence_eq_some_iff, Option.ite_none_right_eq_some,
    Option.some.injEq]
  constructor
  · rintro ⟨row', hrow, ⟨hnull, hchecks⟩, rfl⟩
    have hgiven : ∀ c, table.generated c = none → row' c = row c := by
      intro c hgenerated
      have hrow := hrow c
      rw [hgenerated] at hrow
      exact (Option.some.inj hrow).symm
    refine ⟨hgiven, ?_, fun c => hnull c (table.all_columns c), hchecks⟩
    intro c expression hgenerated
    have hrow := hrow c
    rw [hgenerated] at hrow
    rw [given_congr hgiven]
    exact hrow
  · rintro ⟨hgiven, hgenerated, hnull, hchecks⟩
    refine ⟨revised, ?_, ⟨fun c _ => hnull c, hchecks⟩, rfl⟩
    intro c
    cases h : table.generated c with
    | none => exact congrArg some (hgiven c h).symm
    | some expression =>
        rw [← given_congr hgiven]
        exact hgenerated c expression h

/-- A row of the table is its own revision. -/
theorem Stores.revise {sent stored : Record C} (h : table.Stores sent stored) :
    table.revise stored = some stored :=
  revise_eq_some_iff.mpr ⟨fun _ _ => rfl, h.generated, h.notNull, h.checks⟩

/-- Columns of two rows of the table, put together and revised, are a row of
the table. -/
theorem Holds.revise {a b merged revised : Record C} (ha : table.Holds a) (hb : table.Holds b)
    (hmerged : ∀ c, merged c = a c ∨ merged c = b c) (h : table.revise merged = some revised) :
    table.Holds revised := by
  obtain ⟨sent, hsent⟩ := ha
  obtain ⟨sent', hsent'⟩ := hb
  obtain ⟨hgiven, hgenerated, hnull, hchecks⟩ := revise_eq_some_iff.mp h
  -- each column has been sent with one of the two
  have hassign : ∀ c, ∃ value, table.generated c = none →
      (table.type c).assign value = some (revised c) := by
    intro c
    rcases hmerged c with hc | hc
    · exact ⟨sent c, fun hg => by rw [hgiven c hg, hc, hsent.given c hg]⟩
    · exact ⟨sent' c, fun hg => by rw [hgiven c hg, hc, hsent'.given c hg]⟩
  choose value hvalue using hassign
  exact ⟨value, ⟨hvalue, hgenerated, hnull, hchecks⟩⟩

end Table

/-! ## §2. Catalogs. -/

/-- A unique index, which may leave out the rows with a `NULL` in a column. -/
structure UniqueIndex (C : Type) where
  columns : List C
  whereNotNull : Option C

/-- The key of a row in the index.  A row that the index does not cover has
none, nor has a row with a `NULL` in a column of the index: it conflicts with no
row. -/
def UniqueIndex.key {C : Type} (index : UniqueIndex C) (row : Record C) : Option (List Value) :=
  if (∃ c ∈ index.whereNotNull, row c = .null) ∨ .null ∈ index.columns.map row then none
  else some (index.columns.map row)

theorem UniqueIndex.key_columns {C : Type} {index : UniqueIndex C} {row : Record C}
    {k : List Value} (h : index.key row = some k) : k = index.columns.map row := by
  unfold key at h
  split at h
  · cases h
  · exact (Option.some.inj h).symm

/-- The key of a row is a matter of the columns of the index. -/
theorem UniqueIndex.key_congr {C : Type} {index : UniqueIndex C} {row row' : Record C}
    (h : ∀ c ∈ index.columns ++ index.whereNotNull.toList, row c = row' c) :
    index.key row = index.key row' := by
  have hcolumns : index.columns.map row = index.columns.map row' :=
    List.map_congr_left (fun c hc => h c (List.mem_append_left _ hc))
  have hwhere : (∃ c ∈ index.whereNotNull, row c = .null)
      ↔ ∃ c ∈ index.whereNotNull, row' c = .null := by
    refine exists_congr (fun c => and_congr_right (fun hc => ?_))
    rw [h c (List.mem_append_right _ (Option.mem_toList.mpr hc))]
  unfold key
  simp only [hcolumns, hwhere]

variable {Tab : Type} {Col : Tab → Type}

/-- A foreign key of the table `t`, to the key of another table. -/
structure ForeignKey (Col : Tab → Type) (t : Tab) where
  name : Str
  columns : List (Col t)
  references : Tab

/-- The tables of a database, each with one unique index and its foreign
keys. -/
structure Catalog (Col : Tab → Type) where
  table : ∀ t, Table (Col t)
  index : ∀ t, UniqueIndex (Col t)
  foreignKeys : ∀ t, List (ForeignKey Col t)
  /-- No column of an index or a foreign key is generated. -/
  index_given : ∀ t, ∀ c ∈ (index t).columns ++ (index t).whereNotNull.toList,
    (table t).generated c = none
  foreignKeys_given : ∀ t, ∀ fk ∈ foreignKeys t, ∀ c ∈ fk.columns, (table t).generated c = none

/-- The rows of every table. -/
abbrev Content (Col : Tab → Type) := ∀ t, List (Record (Col t))

namespace Catalog

variable (catalog : Catalog Col)

/-- The keys of a table, in the order of its rows. -/
def keys (t : Tab) (content : Content Col) : List (List Value) :=
  (content t).filterMap (catalog.index t).key

/-- The row of a key. -/
def find (t : Tab) (k : List Value) (content : Content Col) : Option (Record (Col t)) :=
  (content t).find? (fun row => (catalog.index t).key row = some k)

/-- What the row refers to is there; a foreign key with a `NULL` refers to
nothing. -/
def Refers (content : Content Col) (t : Tab) (row : Record (Col t)) : Prop :=
  ∀ fk ∈ catalog.foreignKeys t,
    .null ∈ fk.columns.map row ∨ fk.columns.map row ∈ catalog.keys fk.references content

instance (content : Content Col) (t : Tab) (row : Record (Col t)) :
    Decidable (catalog.Refers content t row) :=
  inferInstanceAs (Decidable (∀ fk ∈ catalog.foreignKeys t, _ ∨ _))

/-- `DO UPDATE SET` columns that no index and no foreign key is made of. -/
structure Assignment (t : Tab) where
  columns : List (Col t)
  not_index : ∀ c ∈ columns,
    c ∉ (catalog.index t).columns ++ (catalog.index t).whereNotNull.toList
  not_foreignKey : ∀ c ∈ columns, ∀ fk ∈ catalog.foreignKeys t, c ∉ fk.columns

inductive OnConflict (t : Tab) where
  | doNothing
  | doUpdate (set : catalog.Assignment t)

/-- Why the server refuses a row. -/
inductive Refusal where
  /-- A column, or a constraint of the table, does not take it. -/
  | row
  /-- It refers to a row that is not there. -/
  | reference
  deriving DecidableEq

variable {catalog} {t : Tab}

theorem mem_keys_iff {content : Content Col} {k : List Value} :
    k ∈ catalog.keys t content ↔ ∃ r ∈ content t, (catalog.index t).key r = some k :=
  List.mem_filterMap

/-- Fresh is what has a key of its own. -/
theorem fresh_iff_keys {content : Content Col} {row : Record (Col t)} :
    Fresh (catalog.index t).key (content t) row ↔
      ∀ k, (catalog.index t).key row = some k → k ∉ catalog.keys t content := by
  refine forall_congr' (fun k => imp_congr_right (fun _ => ?_))
  rw [mem_keys_iff]
  constructor
  · rintro hfresh ⟨r, hr, hk⟩
    exact hfresh r hr hk
  · intro hno r hr hk
    exact hno ⟨r, hr, hk⟩

theorem find_isSome_iff {content : Content Col} {k : List Value} :
    (catalog.find t k content).isSome = true ↔ k ∈ catalog.keys t content := by
  unfold find
  rw [List.find?_isSome, mem_keys_iff]
  simp only [decide_eq_true_eq]

theorem find_key {content : Content Col} {k : List Value} {row : Record (Col t)}
    (h : catalog.find t k content = some row) : (catalog.index t).key row = some k := by
  have hkey := List.find?_some h
  exact of_decide_eq_true hkey

/-! ## §3. What an update does to a row. -/

section Update

variable [DecidableEq (Col t)]

/-- `SET c = EXCLUDED.c`, for the columns of the assignment. -/
def Assignment.merge (set : catalog.Assignment t) (proposed row : Record (Col t)) :
    Record (Col t) :=
  fun c => if c ∈ set.columns then proposed c else row c

/-- What becomes of a row when `proposed` conflicts: the row of its key is
updated. -/
def resolve (set : catalog.Assignment t) (proposed row : Record (Col t)) :
    Option (Record (Col t)) :=
  if (catalog.index t).key row = (catalog.index t).key proposed then
    (catalog.table t).revise (set.merge proposed row)
  else some row

variable {set : catalog.Assignment t} {proposed row row' : Record (Col t)}

/-- Updating a row leaves alone what is neither set nor generated. -/
theorem resolve_column (h : resolve set proposed row = some row') {c : Col t}
    (hset : c ∉ set.columns) (hgiven : (catalog.table t).generated c = none) :
    row' c = row c := by
  unfold resolve at h
  split at h
  · rw [(Table.revise_eq_some_iff.mp h).1 c hgiven]
    exact if_neg hset
  · rw [Option.some.inj h]

theorem resolve_key (h : resolve set proposed row = some row') :
    (catalog.index t).key row' = (catalog.index t).key row :=
  UniqueIndex.key_congr (fun c hc => resolve_column h (fun hmem => set.not_index c hmem hc)
    (catalog.index_given t c hc))

theorem resolve_foreignKey (h : resolve set proposed row = some row')
    {fk : ForeignKey Col t} (hfk : fk ∈ catalog.foreignKeys t) :
    fk.columns.map row' = fk.columns.map row :=
  List.map_congr_left (fun c hc => resolve_column h
    (fun hmem => set.not_foreignKey c hmem fk hfk hc) (catalog.foreignKeys_given t fk hfk c hc))

theorem resolve_keys {rows rows' : List (Record (Col t))}
    (h : List.Forall₂ (fun r r' => resolve set proposed r = some r') rows rows') :
    rows'.filterMap (catalog.index t).key = rows.filterMap (catalog.index t).key := by
  induction h with
  | nil => rfl
  | cons hhead _ ih => rw [List.filterMap_cons, List.filterMap_cons, resolve_key hhead, ih]

theorem resolve_holds (h : resolve set proposed row = some row')
    (hproposed : (catalog.table t).Holds proposed) (hrow : (catalog.table t).Holds row) :
    (catalog.table t).Holds row' := by
  unfold resolve at h
  split at h
  · refine Table.Holds.revise hproposed hrow (fun c => ?_) h
    by_cases hc : c ∈ set.columns
    · exact Or.inl (if_pos hc)
    · exact Or.inr (if_neg hc)
  · rw [← Option.some.inj h]
    exact hrow

/-- Every column is set or part of the key. -/
def Assignment.Complete (set : catalog.Assignment t) : Prop :=
  ∀ c, c ∈ set.columns ∨ c ∈ (catalog.index t).columns

/-- An update that sets every column puts the new row in the place of the old
one. -/
theorem resolve_complete {k : List Value} (hset : set.Complete)
    (hholds : (catalog.table t).Holds proposed) (hk : (catalog.index t).key proposed = some k)
    (h : resolve set proposed row = some row') :
    row' = if (catalog.index t).key row = some k then proposed else row := by
  unfold resolve at h
  rw [hk] at h
  split at h
  next hrow =>
    have hmap := (UniqueIndex.key_columns hrow).symm.trans (UniqueIndex.key_columns hk)
    have hcolumn := List.map_inj_left.mp hmap
    -- the rows agree where they are not set
    have hmerged : set.merge proposed row = proposed := by
      funext c
      unfold Assignment.merge
      split
      · rfl
      next hc => exact hcolumn c ((hset c).resolve_left hc)
    obtain ⟨sent, hstores⟩ := hholds
    rw [hmerged, hstores.revise] at h
    rw [if_pos hrow, Option.some.inj h]
  next hrow => rw [if_neg hrow, Option.some.inj h]

theorem resolve_complete_rows {k : List Value} (hset : set.Complete)
    (hholds : (catalog.table t).Holds proposed) (hk : (catalog.index t).key proposed = some k)
    {rows rows' : List (Record (Col t))}
    (h : List.Forall₂ (fun r r' => resolve set proposed r = some r') rows rows') :
    rows' = rows.map (fun r => if (catalog.index t).key r = some k then proposed else r) := by
  induction h with
  | nil => rfl
  | cons hhead _ ih => rw [List.map_cons, ← ih, resolve_complete hset hholds hk hhead]

end Update

/-! ## §4. What an insert can do. -/

section Insert

variable [DecidableEq Tab] [∀ t, DecidableEq (Col t)]

/-- `INSERT … ON CONFLICT …` of one row: the new content and the rows
affected. -/
def insert (onConflict : catalog.OnConflict t) (sent : Record (Col t)) (content : Content Col) :
    Except Refusal (Content Col × ℕ) :=
  match (catalog.table t).store sent with
  | none => .error .row
  | some row =>
      if Fresh (catalog.index t).key (content t) row then
        -- foreign keys are looked at once the row is in
        if catalog.Refers (Function.update content t (content t ++ [row])) t row then
          .ok (Function.update content t (content t ++ [row]), 1)
        else .error .reference
      else
        match onConflict with
        | .doNothing => .ok (content, 0)
        | .doUpdate set =>
            match (content t).mapM (resolve set row) with
            | none => .error .row
            | some rows => .ok (Function.update content t rows, 1)

variable {onConflict : catalog.OnConflict t} {sent : Record (Col t)} {content content' : Content Col}
  {n : ℕ}

/-- Everything that an accepted insert can do: add its row, do nothing, or
update the row of its key. -/
theorem insert_cases (h : insert onConflict sent content = .ok (content', n)) :
    ∃ row, (catalog.table t).Stores sent row ∧
      ((Fresh (catalog.index t).key (content t) row
          ∧ content' = Function.update content t (content t ++ [row])
          ∧ catalog.Refers content' t row ∧ n = 1)
      ∨ (¬ Fresh (catalog.index t).key (content t) row ∧ onConflict = .doNothing
          ∧ content' = content ∧ n = 0)
      ∨ (¬ Fresh (catalog.index t).key (content t) row ∧ ∃ set rows, onConflict = .doUpdate set
          ∧ List.Forall₂ (fun r r' => resolve set row r = some r') (content t) rows
          ∧ content' = Function.update content t rows ∧ n = 1)) := by
  unfold insert at h
  cases hstore : (catalog.table t).store sent with
  | none =>
      rw [hstore] at h
      cases h
  | some row =>
      rw [hstore] at h
      refine ⟨row, Table.store_eq_some_iff.mp hstore, ?_⟩
      by_cases hfresh : Fresh (catalog.index t).key (content t) row
      · simp only [if_pos hfresh] at h
        split at h
        next hrefers =>
          injection h with h
          rw [Prod.mk.injEq] at h
          obtain ⟨rfl, rfl⟩ := h
          exact Or.inl ⟨hfresh, rfl, hrefers, rfl⟩
        next => cases h
      · simp only [if_neg hfresh] at h
        right
        cases onConflict with
        | doNothing =>
            injection h with h
            rw [Prod.mk.injEq] at h
            exact Or.inl ⟨hfresh, rfl, h.1.symm, h.2.symm⟩
        | doUpdate set =>
            cases hrows : (content t).mapM (resolve set row) with
            | none => simp [hrows] at h
            | some rows =>
                simp only [hrows, Except.ok.injEq, Prod.mk.injEq] at h
                exact Or.inr ⟨hfresh, set, rows, rfl, mapM_eq_some_iff.mp hrows, h.1.symm,
                  h.2.symm⟩

/-- The other tables stay as they are. -/
theorem insert_other (h : insert onConflict sent content = .ok (content', n)) {t' : Tab}
    (ht : t' ≠ t) : content' t' = content t' := by
  obtain ⟨row, _, ⟨_, rfl, _⟩ | ⟨_, _, rfl, _⟩ | ⟨_, set, rows, _, _, rfl, _⟩⟩ := insert_cases h
  · exact Function.update_of_ne ht _ _
  · rfl
  · exact Function.update_of_ne ht _ _

/-- An insert that does nothing on conflict only adds rows. -/
theorem insert_doNothing_append
    (h : insert (.doNothing : catalog.OnConflict t) sent content = .ok (content', n)) (t' : Tab) :
    content t' <+: content' t' := by
  by_cases ht : t' = t
  · subst ht
    obtain ⟨row, _, ⟨_, rfl, _⟩ | ⟨_, _, rfl, _⟩ | ⟨_, set, rows, hset, _⟩⟩ := insert_cases h
    · rw [Function.update_self]
      exact List.prefix_append _ _
    · exact List.prefix_rfl
    · cases hset
  · rw [insert_other h ht]

/-- **What an insert does to the keys**: it may add one that was not there; no
other key comes or goes. -/
theorem insert_keys (h : insert onConflict sent content = .ok (content', n)) :
    (∀ t', catalog.keys t' content' = catalog.keys t' content)
    ∨ ∃ k, k ∉ catalog.keys t content
      ∧ catalog.keys t content' = catalog.keys t content ++ [k]
      ∧ ∀ t', t' ≠ t → catalog.keys t' content' = catalog.keys t' content := by
  have hother : ∀ t', t' ≠ t → catalog.keys t' content' = catalog.keys t' content := by
    intro t' ht
    unfold keys
    rw [insert_other h ht]
  -- the other tables are no concern when the keys of this one stay
  have hsame : catalog.keys t content' = catalog.keys t content →
      ∀ t', catalog.keys t' content' = catalog.keys t' content := by
    intro hkeys t'
    by_cases ht : t' = t
    · exact ht ▸ hkeys
    · exact hother t' ht
  obtain ⟨row, _, ⟨hfresh, hcontent, _⟩ | ⟨_, _, rfl, _⟩ | ⟨_, set, rows, _, hrows, hcontent, _⟩⟩ :=
    insert_cases h
  · have hkeys : catalog.keys t content'
        = catalog.keys t content ++ ((catalog.index t).key row).toList := by
      unfold keys
      rw [hcontent, Function.update_self, List.filterMap_append]
      cases hk : (catalog.index t).key row <;> simp [hk]
    cases hk : (catalog.index t).key row with
    | none =>
        rw [hk, Option.toList_none, List.append_nil] at hkeys
        exact Or.inl (hsame hkeys)
    | some k =>
        rw [hk, Option.toList_some] at hkeys
        exact Or.inr ⟨k, fresh_iff_keys.mp hfresh k hk, hkeys, hother⟩
  · exact Or.inl (fun _ => rfl)
  · refine Or.inl (hsame ?_)
    unfold keys
    rw [hcontent, Function.update_self, resolve_keys hrows]

/-- No key is ever lost. -/
theorem insert_keys_prefix (h : insert onConflict sent content = .ok (content', n)) (t' : Tab) :
    catalog.keys t' content <+: catalog.keys t' content' := by
  rcases insert_keys h with hkeys | ⟨k, _, hkeys, hother⟩
  · rw [hkeys]
  · by_cases ht : t' = t
    · rw [ht, hkeys]
      exact List.prefix_append _ _
    · rw [hother t' ht]

end Insert

/-! ## §5. Integrity. -/

/-- What a database with the catalog keeps: every row is one of its table, no
key occurs twice, and every reference has its row. -/
structure Integrity (catalog : Catalog Col) (content : Content Col) : Prop where
  holds : ∀ t, ∀ row ∈ content t, (catalog.table t).Holds row
  unique : ∀ t, (catalog.keys t content).Nodup
  refers : ∀ t, ∀ row ∈ content t, catalog.Refers content t row

theorem Integrity.empty (catalog : Catalog Col) : Integrity catalog (fun _ => []) where
  holds := nofun
  unique _ := List.nodup_nil
  refers := nofun

/-- A reference outlives what keeps the keys. -/
theorem Refers.mono {content content' : Content Col} {row : Record (Col t)}
    (h : catalog.Refers content t row)
    (hkeys : ∀ t', catalog.keys t' content <+: catalog.keys t' content') :
    catalog.Refers content' t row :=
  fun fk hfk => (h fk hfk).imp_right (fun hmem => (hkeys fk.references).subset hmem)

variable [DecidableEq Tab] [∀ t, DecidableEq (Col t)]

section Integrity

variable {onConflict : catalog.OnConflict t} {sent : Record (Col t)} {content content' : Content Col}
  {n : ℕ}

/-- Where the rows of a table come from: they were there, are added, or are
updated from one that was there. -/
theorem insert_mem (h : insert onConflict sent content = .ok (content', n))
    {row' : Record (Col t)} (hmem : row' ∈ content' t) :
    row' ∈ content t
    ∨ ((catalog.table t).Holds row' ∧ catalog.Refers content' t row')
    ∨ ∃ (set : catalog.Assignment t) (proposed : Record (Col t)),
      (catalog.table t).Holds proposed
        ∧ ∃ row ∈ content t, resolve set proposed row = some row' := by
  obtain ⟨row, hstores, ⟨_, hcontent, hrefers, _⟩ | ⟨_, _, rfl, _⟩
    | ⟨_, set, rows, _, hrows, hcontent, _⟩⟩ := insert_cases h
  · have hrow : row' ∈ content t ++ [row] := by
      rw [hcontent, Function.update_self] at hmem
      exact hmem
    rcases List.mem_append.mp hrow with hold | hnew
    · exact Or.inl hold
    · rw [List.mem_singleton.mp hnew]
      exact Or.inr (Or.inl ⟨⟨sent, hstores⟩, hrefers⟩)
  · exact Or.inl hmem
  · rw [hcontent, Function.update_self] at hmem
    -- the updated rows stand where the rows stood
    exact Or.inr (Or.inr ⟨set, row, ⟨sent, hstores⟩, forall₂_mem_right hrows hmem⟩)

/-- **An accepted insert keeps the integrity of the database.** -/
theorem Integrity.insert (hintegrity : Integrity catalog content)
    (h : Catalog.insert onConflict sent content = .ok (content', n)) :
    Integrity catalog content' := by
  have hprefix := insert_keys_prefix h
  refine ⟨?_, ?_, ?_⟩
  · intro t' row hmem
    by_cases ht : t' = t
    · subst ht
      rcases insert_mem h hmem with hold | ⟨hholds, _⟩ | ⟨set, proposed, hholds, r, hr, hresolve⟩
      · exact hintegrity.holds t' row hold
      · exact hholds
      · exact resolve_holds hresolve hholds (hintegrity.holds t' r hr)
    · rw [insert_other h ht] at hmem
      exact hintegrity.holds t' row hmem
  · intro t'
    rcases insert_keys h with hkeys | ⟨k, hk, hkeys, hother⟩
    · rw [hkeys]
      exact hintegrity.unique t'
    · by_cases ht : t' = t
      · rw [ht, hkeys, List.nodup_append]
        refine ⟨hintegrity.unique t, List.nodup_singleton k, ?_⟩
        intro a ha b hb hab
        rw [List.mem_singleton.mp hb] at hab
        exact hk (hab ▸ ha)
      · rw [hother t' ht]
        exact hintegrity.unique t'
  · intro t' row hmem
    by_cases ht : t' = t
    · subst ht
      rcases insert_mem h hmem with hold | ⟨_, hrefers⟩ | ⟨set, proposed, _, r, hr, hresolve⟩
      · exact (hintegrity.refers t' row hold).mono hprefix
      · exact hrefers
      · -- an update does not touch what the row refers to
        intro fk hfk
        rw [resolve_foreignKey hresolve hfk]
        exact (hintegrity.refers t' r hr).mono hprefix fk hfk
    · rw [insert_other h ht] at hmem
      exact (hintegrity.refers t' row hmem).mono hprefix

/-- Where every reference is part of the key and leads to another table, a row
that conflicts refers to what its twin refers to: so **an insert whose row the
table takes is refused for a missing reference only**. -/
theorem insert_doNothing_eq (hintegrity : Integrity catalog content) {row : Record (Col t)}
    (hstore : (catalog.table t).store sent = some row)
    (hinside : ∀ fk ∈ catalog.foreignKeys t, ∀ c ∈ fk.columns, c ∈ (catalog.index t).columns)
    (hother : ∀ fk ∈ catalog.foreignKeys t, fk.references ≠ t) :
    Catalog.insert (.doNothing : catalog.OnConflict t) sent content
      = if catalog.Refers content t row then
          .ok (if Fresh (catalog.index t).key (content t) row then
            (Function.update content t (content t ++ [row]), 1) else (content, 0))
        else .error .reference := by
  unfold Catalog.insert
  simp only [hstore]
  by_cases hfresh : Fresh (catalog.index t).key (content t) row
  · have hrefers : catalog.Refers (Function.update content t (content t ++ [row])) t row
        ↔ catalog.Refers content t row := by
      refine forall₂_congr (fun fk hfk => or_congr_right ?_)
      unfold keys
      rw [Function.update_of_ne (hother fk hfk)]
    simp only [if_pos hfresh, hrefers]
  · -- the row that is in the way has the same references
    have hrefers : catalog.Refers content t row := by
      unfold Fresh at hfresh
      push Not at hfresh
      obtain ⟨k, hk, r, hr, hrk⟩ := hfresh
      have hcolumns := List.map_inj_left.mp
        ((UniqueIndex.key_columns hrk).symm.trans (UniqueIndex.key_columns hk))
      intro fk hfk
      have hsame : fk.columns.map row = fk.columns.map r :=
        List.map_congr_left (fun c hc => (hcolumns c (hinside fk hfk c hc)).symm)
      rw [hsame]
      exact hintegrity.refers t r hr fk hfk
    rw [if_neg hfresh, if_pos hrefers, if_neg hfresh]

end Integrity

/-! ## §6. Upserts that set every column. -/

/-- **An upsert writes its row at its key**, and nothing else. -/
theorem insert_find {set : catalog.Assignment t} (hset : set.Complete) {sent : Record (Col t)}
    {content content' : Content Col} {n : ℕ}
    (h : insert (.doUpdate set) sent content = .ok (content', n)) :
    ∃ row, (catalog.table t).Stores sent row ∧ ∀ k, catalog.find t k content'
      = if (catalog.index t).key row = some k then some row else catalog.find t k content := by
  obtain ⟨row, hstores, ⟨hfresh, hcontent, _⟩ | ⟨_, hnothing, _⟩
    | ⟨hconflict, set', rows, hset', hrows, hcontent, _⟩⟩ := insert_cases h
  · refine ⟨row, hstores, fun k => ?_⟩
    unfold find
    rw [hcontent, Function.update_self, List.find?_append, List.find?_singleton]
    by_cases hk : (catalog.index t).key row = some k
    · -- no row before it has the key
      have hnone : (content t).find? (fun r => (catalog.index t).key r = some k) = none :=
        List.find?_eq_none.mpr (fun r hr hkey => hfresh k hk r hr (of_decide_eq_true hkey))
      rw [hnone, if_pos hk, if_pos (decide_eq_true hk)]
      rfl
    · rw [if_neg hk, if_neg (fun hkey => hk (of_decide_eq_true hkey)), Option.or_none]
  · cases hnothing
  · injection hset' with hset'
    subst hset'
    obtain ⟨k₀, hk₀⟩ : ∃ k, (catalog.index t).key row = some k := by
      cases hk : (catalog.index t).key row with
      | some k => exact ⟨k, rfl⟩
      | none =>
          refine absurd (fun k hk' => ?_) hconflict
          rw [hk] at hk'
          cases hk'
    have hmap := resolve_complete_rows hset ⟨sent, hstores⟩ hk₀ hrows
    -- the row of the key is replaced, the others stay
    have hsame : ∀ k, (fun r => decide ((catalog.index t).key r = some k))
        ∘ (fun r => if (catalog.index t).key r = some k₀ then row else r)
        = fun r => decide ((catalog.index t).key r = some k) := by
      intro k
      funext r
      by_cases hr : (catalog.index t).key r = some k₀
      · simp [hr, hk₀]
      · simp [hr]
    refine ⟨row, hstores, fun k => ?_⟩
    unfold find
    rw [hcontent, Function.update_self, hmap, List.find?_map, hsame, hk₀]
    by_cases hk : k = k₀
    · rw [if_pos (congrArg some hk.symm), hk]
      have hsome : ((content t).find? (fun r => (catalog.index t).key r = some k₀)).isSome
          = true := by
        rw [← find, find_isSome_iff]
        by_contra hno
        exact hconflict (fresh_iff_keys.mpr (fun k' hk' => Option.some.inj (hk₀.symm.trans hk') ▸ hno))
      obtain ⟨r, hr⟩ := Option.isSome_iff_exists.mp hsome
      rw [hr, Option.map_some, if_pos (find_key hr)]
    · rw [if_neg (fun h => hk (Option.some.inj h).symm)]
      cases hr : (content t).find? (fun r => (catalog.index t).key r = some k) with
      | none => rfl
      | some r =>
          have hkey : (catalog.index t).key r = some k := find_key hr
          rw [Option.map_some, if_neg (fun h => hk (Option.some.inj (hkey.symm.trans h)))]

end Catalog

end FinCore.Sql

/-
  FinCore.Redis.Hash
  ──────────────────
  Hashes that are written field by field.

  A hash keeps each field once, so writing a list of fields to an empty key
  leaves exactly that list if and only if no name occurs twice
  (`setFields_perm_iff`).
-/
import FinCore.Redis.Keyspace

namespace FinCore.Redis

open FinCore.Cxx

/-! ## §1. Fields. -/

/-- Writing a field adds its name, if it is not there. -/
theorem setField_names (fields : List (Str × Str)) (field value : Str) :
    (setField fields field value).map Prod.fst
      = if field ∈ fields.map Prod.fst then fields.map Prod.fst
        else fields.map Prod.fst ++ [field] := by
  have hany : fields.any (fun f => f.1 == field) = true ↔ field ∈ fields.map Prod.fst := by
    simp [List.any_eq_true, List.mem_map]
  unfold setField
  by_cases hmem : field ∈ fields.map Prod.fst
  · rw [if_pos (hany.mpr hmem), if_pos hmem, List.map_map]
    refine List.map_congr_left ?_
    intro f _
    show (if f.1 = field then (field, value) else f).1 = f.1
    split
    next heq => exact heq.symm
    next => rfl
  · rw [if_neg (fun h => hmem (hany.mp h)), if_neg hmem, List.map_append]
    rfl

theorem setField_nodup {fields : List (Str × Str)} (h : (fields.map Prod.fst).Nodup)
    (field value : Str) : ((setField fields field value).map Prod.fst).Nodup := by
  rw [setField_names]
  split
  next => exact h
  next hmem =>
    rw [← List.concat_eq_append]
    exact List.Nodup.concat hmem h

/-- The names stay distinct, whatever is written. -/
theorem setFields_nodup {fields : List (Str × Str)} (h : (fields.map Prod.fst).Nodup)
    (news : List (Str × Str)) : ((setFields fields news).map Prod.fst).Nodup := by
  induction news generalizing fields with
  | nil => exact h
  | cons f rest ih => exact ih (setField_nodup h f.1 f.2)

/-- New names are appended in order. -/
theorem setFields_append {fields news : List (Str × Str)}
    (h : ((fields ++ news).map Prod.fst).Nodup) : setFields fields news = fields ++ news := by
  induction news generalizing fields with
  | nil => exact (List.append_nil fields).symm
  | cons f rest ih =>
      have hsplit : fields ++ f :: rest = (fields ++ [f]) ++ rest := List.append_cons fields f rest
      rw [hsplit] at h ⊢
      -- the field is new, so it goes to the end
      have hnew : fields.any (fun g => g.1 == f.1) = false := by
        rw [List.any_eq_false]
        intro g hg heq
        rw [List.map_append, List.map_append] at h
        have hdisjoint := List.disjoint_of_nodup_append (List.Nodup.of_append_left h)
        refine hdisjoint (List.mem_map_of_mem hg) ?_
        rw [beq_iff_eq.mp heq]
        exact List.mem_cons_self
      have hset : setField fields f.1 f.2 = fields ++ [f] := by
        unfold setField
        rw [hnew]
        rfl
      show setFields (setField fields f.1 f.2) rest = _
      rw [hset]
      exact ih h

/-- **Fields written to an empty hash are all there exactly if their names are
distinct.** -/
theorem setFields_perm_iff (news : List (Str × Str)) :
    (setFields [] news).Perm news ↔ (news.map Prod.fst).Nodup := by
  constructor
  · intro h
    have hnil : (([] : List (Str × Str)).map Prod.fst).Nodup := List.nodup_nil
    exact (h.map Prod.fst).nodup_iff.mp (setFields_nodup hnil news)
  · intro h
    have hall : setFields [] news = [] ++ news := setFields_append h
    rw [hall]
    exact List.Perm.refl news

/-! ## §2. Keys. -/

/-- The key holds the fields, without expiry; a hash without fields is no
entry. -/
def HashAt (keys : Keyspace) (key : Str) (fields : List (Str × Str)) : Prop :=
  keys key = if fields = [] then none else some ⟨.hash fields, none⟩

theorem HashAt.congr {keys keys' : Keyspace} {key : Str} {fields : List (Str × Str)}
    (h : HashAt keys key fields) (heq : keys' key = keys key) : HashAt keys' key fields :=
  heq.trans h

theorem HashAt.lookup {keys : Keyspace} {key : Str} {fields : List (Str × Str)}
    (h : HashAt keys key fields) (now : ℤ) :
    lookup now keys key = if fields = [] then none else some ⟨.hash fields, none⟩ :=
  lookup_plain h now

theorem hashAt_del (now : ℤ) (keys : Keyspace) (key : Str) :
    HashAt ((Command.del key).run now keys).2 key [] :=
  ((Command.del key).run_self now keys rfl).2

theorem setField_ne_nil (fields : List (Str × Str)) (field value : Str) :
    setField fields field value ≠ [] := by
  intro hnil
  have hnames := setField_names fields field value
  rw [hnil] at hnames
  split at hnames
  next hmem =>
    rw [← hnames] at hmem
    cases hmem
  next => exact absurd hnames.symm (List.append_ne_nil_of_right_ne_nil _ (List.cons_ne_nil _ _))

/-- HSET writes its field. -/
theorem HashAt.hset {keys : Keyspace} {key : Str} {fields : List (Str × Str)}
    (h : HashAt keys key fields) (now : ℤ) (field value : Str) :
    HashAt ((Command.hset key field value).run now keys).2 key (setField fields field value) := by
  have hself := ((Command.hset key field value).run_self now keys rfl).2
  rw [h.lookup now] at hself
  unfold HashAt
  rw [hself, if_neg (setField_ne_nil fields field value)]
  cases fields with
  | nil => rfl
  | cons f rest => rfl

/-- HGETALL replies with the fields. -/
theorem HashAt.hgetall {keys : Keyspace} {key : Str} {fields : List (Str × Str)}
    (h : HashAt keys key fields) (now : ℤ) :
    ((Command.hgetall key).run now keys).1 = .fields fields := by
  rw [((Command.hgetall key).run_self now keys rfl).1, h.lookup now]
  cases fields with
  | nil => rfl
  | cons f rest => rfl

end FinCore.Redis

/-
  FinCore.Cxx.OrderedMap
  ──────────────────────
  `std::map`: the entries in the order of the comparator.

  The order is a field of the structure.  A comparator need not be total: keys
  that are neither less nor greater are equivalent, the map keeps one of them,
  and assignment overwrites the value under the key already there.  Where the
  key compares with every stored key, membership after an operation is what one
  expects of a finite map (`mem_assign`, `mem_erase`).
-/
import Mathlib

namespace FinCore.Cxx

/-- A strict comparator: irreflexive and transitive. -/
class Comparator {K : Type} (lt : K → K → Bool) : Prop where
  irrefl : ∀ a, lt a a = false
  trans : ∀ {a b c}, lt a b = true → lt b c = true → lt a c = true

/-- `std::map<K, V, lt>`. -/
@[ext] structure OrderedMap (K V : Type) (lt : K → K → Bool) where
  entries : List (K × V)
  sorted : entries.Pairwise (fun a b => lt a.1 b.1 = true)

namespace OrderedMap

variable {K V : Type} {lt : K → K → Bool}

/-! ## §1. Operations. -/

def empty : OrderedMap K V lt := ⟨[], List.Pairwise.nil⟩

/-- `m[k] = v` on the entries: past the smaller keys, then insert in front of a
greater key or overwrite an equivalent one. -/
def assignEntries (lt : K → K → Bool) (k : K) (v : V) : List (K × V) → List (K × V)
  | [] => [(k, v)]
  | (k', v') :: rest =>
      if lt k' k then (k', v') :: assignEntries lt k v rest
      else if lt k k' then (k, v) :: (k', v') :: rest
      else (k', v) :: rest

/-- Every key after an assignment is `k` or was there before. -/
theorem assignEntries_key {k : K} {v : V} {es : List (K × V)} {e : K × V}
    (h : e ∈ assignEntries lt k v es) : e.1 = k ∨ ∃ e' ∈ es, e'.1 = e.1 := by
  induction es with
  | nil =>
      rw [assignEntries, List.mem_singleton] at h
      exact Or.inl (by rw [h])
  | cons e' es ih =>
      obtain ⟨k', v'⟩ := e'
      rw [assignEntries] at h
      split at h
      · rcases List.mem_cons.mp h with rfl | h
        · exact Or.inr ⟨_, List.mem_cons_self, rfl⟩
        · rcases ih h with hk | ⟨e'', he'', hk⟩
          · exact Or.inl hk
          · exact Or.inr ⟨e'', List.mem_cons_of_mem _ he'', hk⟩
      · split at h
        · rcases List.mem_cons.mp h with rfl | h
          · exact Or.inl rfl
          · exact Or.inr ⟨e, h, rfl⟩
        · rcases List.mem_cons.mp h with rfl | h
          · exact Or.inr ⟨_, List.mem_cons_self, rfl⟩
          · exact Or.inr ⟨e, List.mem_cons_of_mem _ h, rfl⟩

theorem assignEntries_sorted [Comparator lt] (k : K) (v : V) {es : List (K × V)}
    (h : es.Pairwise (fun a b => lt a.1 b.1 = true)) :
    (assignEntries lt k v es).Pairwise (fun a b => lt a.1 b.1 = true) := by
  induction es with
  | nil => exact List.pairwise_singleton _ _
  | cons e es ih =>
      obtain ⟨k', v'⟩ := e
      obtain ⟨hhead, htail⟩ := List.pairwise_cons.mp h
      rw [assignEntries]
      split
      next hlt =>
        -- the new key comes later, past a smaller one
        refine List.pairwise_cons.mpr ⟨?_, ih htail⟩
        intro e he
        rcases assignEntries_key he with hk | ⟨e', he', hk⟩
        · rw [hk]
          exact hlt
        · rw [← hk]
          exact hhead e' he'
      next =>
        split
        next hlt =>
          refine List.pairwise_cons.mpr ⟨?_, h⟩
          intro e he
          rcases List.mem_cons.mp he with rfl | he
          · exact hlt
          · exact Comparator.trans hlt (hhead e he)
        next => exact List.pairwise_cons.mpr ⟨hhead, htail⟩

/-- `m[k] = v`. -/
def assign [Comparator lt] (k : K) (v : V) (m : OrderedMap K V lt) : OrderedMap K V lt :=
  ⟨assignEntries lt k v m.entries, assignEntries_sorted k v m.sorted⟩

/-- Neither key is less than the other. -/
def equivalent (lt : K → K → Bool) (a b : K) : Bool := !lt a b && !lt b a

/-- `m.erase(k)`. -/
def erase (k : K) (m : OrderedMap K V lt) : OrderedMap K V lt :=
  ⟨m.entries.filter (fun e => !equivalent lt e.1 k), m.sorted.filter _⟩

/-- `m.find(k)`. -/
def find? (k : K) (m : OrderedMap K V lt) : Option (K × V) :=
  m.entries.find? (fun e => equivalent lt e.1 k)

/-- `m.emplace(k, v)`: nothing happens if the key is there. -/
def emplace [Comparator lt] (m : OrderedMap K V lt) (e : K × V) : OrderedMap K V lt :=
  if (m.find? e.1).isSome then m else m.assign e.1 e.2

/-- The range constructor. -/
def ofEntries [Comparator lt] (es : List (K × V)) : OrderedMap K V lt :=
  es.foldl emplace empty

/-- The value under `k`, if `k` itself is a key. -/
def value? [DecidableEq K] (k : K) (m : OrderedMap K V lt) : Option V :=
  (m.entries.find? (fun e => decide (e.1 = k))).map Prod.snd

/-- `m.size()`. -/
def size (m : OrderedMap K V lt) : ℕ := m.entries.length

/-- The map holds `v` under `k`. -/
def Holds (m : OrderedMap K V lt) (k : K) (v : V) : Prop := (k, v) ∈ m.entries

/-! ## §2. Keys. -/

/-- The comparator decides between `k` and every key of the map. -/
def Compares (m : OrderedMap K V lt) (k : K) : Prop :=
  ∀ e ∈ m.entries, lt e.1 k = true ∨ e.1 = k ∨ lt k e.1 = true

theorem not_holds_empty (k : K) (v : V) : ¬ (empty : OrderedMap K V lt).Holds k v := by
  show (k, v) ∉ []
  exact List.not_mem_nil

/-- The first entry is below all others. -/
theorem head_le {m : OrderedMap K V lt} {e f : K × V} (he : m.entries.head? = some e)
    (hf : f ∈ m.entries) : f = e ∨ lt e.1 f.1 = true := by
  have hsorted := m.sorted
  cases hm : m.entries with
  | nil =>
      rw [hm] at he
      cases he
  | cons g rest =>
      rw [hm] at he hf hsorted
      injection he with he
      subst he
      rcases List.mem_cons.mp hf with rfl | hf
      · exact Or.inl rfl
      · exact Or.inr ((List.pairwise_cons.mp hsorted).1 f hf)

theorem head_eq_none_iff {m : OrderedMap K V lt} :
    m.entries.head?.map Prod.fst = none ↔ ∀ k v, ¬ m.Holds k v := by
  rw [Option.map_eq_none_iff, List.head?_eq_none_iff, List.eq_nil_iff_forall_not_mem]
  constructor
  · intro h k v
    exact h (k, v)
  · intro h e
    exact h e.1 e.2

variable [Comparator lt]

theorem ne_of_lt {a b : K} (h : lt a b = true) : a ≠ b := by
  intro hab
  have hirr : lt b b = false := Comparator.irrefl b
  rw [hab, hirr] at h
  cases h

theorem lt_asymm {a b : K} (h : lt a b = true) : lt b a = false := by
  rw [← Bool.not_eq_true]
  intro hba
  exact ne_of_lt (Comparator.trans h hba) rfl

theorem keys_nodup (m : OrderedMap K V lt) : (m.entries.map Prod.fst).Nodup := by
  rw [List.Nodup, List.pairwise_map]
  exact m.sorted.imp (fun h => ne_of_lt h)

/-- A key holds one value. -/
theorem holds_unique {m : OrderedMap K V lt} {k : K} {v w : V} (hv : m.Holds k v)
    (hw : m.Holds k w) : v = w :=
  (Prod.ext_iff.mp (List.inj_on_of_nodup_map m.keys_nodup hv hw rfl)).2

/-- The size counts the keys. -/
theorem size_eq_ncard [DecidableEq K] (m : OrderedMap K V lt) :
    m.size = Set.ncard {k | ∃ v, m.Holds k v} := by
  have hset : {k | ∃ v, m.Holds k v} = ((m.entries.map Prod.fst).toFinset : Set K) := by
    ext k
    simp [Holds]
  rw [hset, Set.ncard_coe_finset, List.toFinset_card_of_nodup m.keys_nodup, List.length_map]
  rfl

/-- The first key is the one below all others. -/
theorem head_eq_some_iff {m : OrderedMap K V lt} {k : K} :
    m.entries.head?.map Prod.fst = some k ↔
      (∃ v, m.Holds k v) ∧ ∀ k' v', m.Holds k' v' → k' = k ∨ lt k k' = true := by
  constructor
  · intro h
    obtain ⟨e, he, hk⟩ := Option.map_eq_some_iff.mp h
    subst hk
    refine ⟨⟨e.2, List.mem_of_head? he⟩, ?_⟩
    intro k' v' hmem
    rcases head_le he hmem with hfst | hlt
    · exact Or.inl (congrArg Prod.fst hfst)
    · exact Or.inr hlt
  · rintro ⟨⟨v, hv⟩, hmin⟩
    cases he : m.entries.head? with
    | none =>
        have hnil : m.entries = [] := List.head?_eq_none_iff.mp he
        have hv' : (k, v) ∈ m.entries := hv
        rw [hnil] at hv'
        exact absurd hv' List.not_mem_nil
    | some e =>
        -- the head and `k` bound each other
        rcases head_le he hv with hke | hlt
        · rw [Option.map_some, ← hke]
        · rcases hmin e.1 e.2 (List.mem_of_head? he) with heq | hgt
          · rw [Option.map_some, heq]
          · rw [lt_asymm hlt] at hgt
            cases hgt

/-! ## §3. Membership after each operation. -/

theorem mem_assignEntries {k : K} {v : V} {es : List (K × V)}
    (hs : es.Pairwise (fun a b => lt a.1 b.1 = true))
    (hc : ∀ e ∈ es, lt e.1 k = true ∨ e.1 = k ∨ lt k e.1 = true) (e : K × V) :
    e ∈ assignEntries lt k v es ↔ e = (k, v) ∨ (e.1 ≠ k ∧ e ∈ es) := by
  induction es with
  | nil => simp [assignEntries]
  | cons e' es ih =>
      obtain ⟨k', v'⟩ := e'
      obtain ⟨hhead, htail⟩ := List.pairwise_cons.mp hs
      have ih' := ih htail (fun f hf => hc f (List.mem_cons_of_mem _ hf))
      rw [assignEntries]
      rcases hc (k', v') List.mem_cons_self with hlt | heq | hgt
      · have hne : k' ≠ k := ne_of_lt hlt
        rw [if_pos hlt, List.mem_cons, List.mem_cons, ih']
        constructor
        · rintro (rfl | h | h)
          · exact Or.inr ⟨hne, Or.inl rfl⟩
          · exact Or.inl h
          · exact Or.inr ⟨h.1, Or.inr h.2⟩
        · rintro (h | ⟨h, rfl | h'⟩)
          · exact Or.inr (Or.inl h)
          · exact Or.inl rfl
          · exact Or.inr (Or.inr ⟨h, h'⟩)
      · -- the key is there: its value is replaced, and no later entry has it
        simp only at heq
        subst heq
        have hirr : lt k' k' = false := Comparator.irrefl k'
        rw [hirr]
        simp only [Bool.false_eq_true, if_false, List.mem_cons]
        constructor
        · rintro (h | h)
          · exact Or.inl h
          · exact Or.inr ⟨(ne_of_lt (hhead e h)).symm, Or.inr h⟩
        · rintro (h | ⟨h, rfl | h'⟩)
          · exact Or.inl h
          · exact absurd rfl h
          · exact Or.inr h'
      · have hnlt : lt k' k = false := lt_asymm hgt
        rw [hnlt, hgt]
        simp only [Bool.false_eq_true, if_false, if_true]
        -- every key from here on is greater
        have hall : ∀ f ∈ (k', v') :: es, f.1 ≠ k := by
          intro f hf
          rcases List.mem_cons.mp hf with rfl | hf
          · exact (ne_of_lt hgt).symm
          · exact (ne_of_lt (Comparator.trans hgt (hhead f hf))).symm
        rw [List.mem_cons]
        constructor
        · rintro (h | h)
          · exact Or.inl h
          · exact Or.inr ⟨hall e h, h⟩
        · rintro (h | ⟨_, h⟩)
          · exact Or.inl h
          · exact Or.inr h

theorem holds_assign {m : OrderedMap K V lt} {k : K} (hc : m.Compares k) (v : V) (p : K) (w : V) :
    (m.assign k v).Holds p w ↔ (p = k ∧ w = v) ∨ (p ≠ k ∧ m.Holds p w) := by
  have h := mem_assignEntries (v := v) m.sorted hc (p, w)
  rw [Prod.mk.injEq] at h
  exact h

theorem holds_erase {m : OrderedMap K V lt} {k : K} (hc : m.Compares k) (p : K) (w : V) :
    (m.erase k).Holds p w ↔ p ≠ k ∧ m.Holds p w := by
  show (p, w) ∈ m.entries.filter _ ↔ _
  rw [List.mem_filter]
  constructor
  · intro ⟨hmem, hne⟩
    refine ⟨?_, hmem⟩
    intro hpk
    rw [hpk] at hne
    simp [equivalent, Comparator.irrefl] at hne
  · intro ⟨hne, hmem⟩
    refine ⟨hmem, ?_⟩
    rcases hc (p, w) hmem with hlt | heq | hgt
    · simp [equivalent, hlt]
    · exact absurd heq hne
    · simp [equivalent, hgt]

end OrderedMap

end FinCore.Cxx
